import TrinityCore.Combat.World

/-!
# The ledger of references

What the maps, stores and flags of all units say, with sort keys, heaps and victims left out:
the abstract state of the bookkeeping. A ledger is consistent when the maps are exactly the
indices of the live references and every flag tells whether an active reference is held.
-/

namespace TrinityCore.Combat

open Function Option

/-- The reference joins the two units. -/
def CombatReference.Between (ref : CombatReference) (a b : ObjectGuid) : Prop :=
  (ref.first = a ∧ ref.second = b) ∨ (ref.first = b ∧ ref.second = a)

instance (ref : CombatReference) (a b : ObjectGuid) : Decidable (ref.Between a b) :=
  inferInstanceAs (Decidable (_ ∨ _))

variable {ref : CombatReference} {a b x : ObjectGuid} {id i : RefId}
  {f : CombatReference → CombatReference}

theorem CombatReference.Between.symm (h : ref.Between a b) : ref.Between b a := Or.symm h

/-- Who refers to whom, and who is flagged. -/
@[ext] structure Ledger where
  /-- The combat references by kind, owner of the map and key. -/
  combat : Bool → ObjectGuid → ObjectGuid → Option RefId
  reference : RefId → Option CombatReference
  /-- The threat list of the first unit. -/
  threat : ObjectGuid → ObjectGuid → Option RefId
  /-- The threatened-by-me list of the first unit. -/
  threatened : ObjectGuid → ObjectGuid → Option RefId
  /-- Owner and victim of a threat reference. -/
  ends : RefId → Option (ObjectGuid × ObjectGuid)
  inCombat : ObjectGuid → Bool
  next : RefId

namespace Ledger

variable (l : Ledger)

/-- Follow a pointer. -/
def deref (id : RefId) : CombatReference := (l.reference id).getD default

/-- The unit holds a reference not suppressed for it. -/
def HasCombat (a : ObjectGuid) : Prop :=
  ∃ pvp b id, l.combat pvp a b = some id ∧ (l.deref id).isSuppressedFor a = false

/-- The flag of the unit tells whether it has combat. -/
def Flagged (a : ObjectGuid) : Prop := l.inCombat a = true ↔ l.HasCombat a

/-- The combat maps are the index of the live combat references. -/
structure CombatLinked (l : Ledger) : Prop where
  combat : ∀ pvp a b id, l.combat pvp a b = some id ↔
    ∃ ref, l.reference id = some ref ∧ ref.isPvP = pvp ∧ ref.Between a b
  distinct : ∀ id ref, l.reference id = some ref → ref.first ≠ ref.second
  single : ∀ id id' ref ref', l.reference id = some ref → l.reference id' = some ref' →
    ref'.Between ref.first ref.second → id' = id
  fresh : ∀ id ref, l.reference id = some ref → id < l.next

/-- The threat maps are the index of the live threat references. -/
structure ThreatLinked (l : Ledger) : Prop where
  threat : ∀ a b id, l.threat a b = some id ↔ l.ends id = some (a, b)
  threatened : ∀ a b id, l.threatened b a = some id ↔ l.ends id = some (a, b)
  fresh : ∀ id pair, l.ends id = some pair → id < l.next

/-- A combat reference joins the two units. -/
def Joined (a b : ObjectGuid) : Prop :=
  ∃ id ref, l.reference id = some ref ∧ ref.Between a b

/-- A unit joined to another has an entry for it. -/
theorem CombatLinked.joined_iff {l : Ledger} (h : l.CombatLinked) :
    l.Joined a b ↔ ∃ pvp id, l.combat pvp a b = some id := by
  constructor
  · rintro ⟨id, ref, href, hbetween⟩
    exact ⟨ref.isPvP, id, (h.combat _ a b id).mpr ⟨ref, href, rfl, hbetween⟩⟩
  · rintro ⟨pvp, id, hid⟩
    obtain ⟨ref, href, -, hbetween⟩ := (h.combat pvp a b id).mp hid
    exact ⟨id, ref, href, hbetween⟩

/-- Threat implies combat. -/
def Covered : Prop := ∀ id a b, l.ends id = some (a, b) → l.Joined a b

/-- The ledger is what the managers promise. -/
structure Consistent (l : Ledger) : Prop where
  combatLinked : l.CombatLinked
  threatLinked : l.ThreatLinked
  covered : l.Covered
  flagged : ∀ a, l.Flagged a

/-! ### Flags -/

open Classical in
/-- `UpdateOwnerCombatState`. -/
noncomputable def updateState (l : Ledger) (a : ObjectGuid) : Ledger :=
  { l with inCombat := update l.inCombat a (decide (l.HasCombat a)) }

variable {l : Ledger}

theorem hasCombat_updateState (a x : ObjectGuid) :
    (l.updateState a).HasCombat x ↔ l.HasCombat x := Iff.rfl

theorem flagged_updateState_self (l : Ledger) (a : ObjectGuid) : (l.updateState a).Flagged a := by
  classical
  have hflag : (l.updateState a).inCombat a = decide (l.HasCombat a) := update_self _ _ _
  rw [Flagged, hasCombat_updateState, hflag, decide_eq_true_iff]

theorem Flagged.updateState (h : l.Flagged x) (a : ObjectGuid) : (l.updateState a).Flagged x := by
  by_cases hx : x = a
  · subst hx
    exact flagged_updateState_self l x
  · have hflag : (l.updateState a).inCombat x = l.inCombat x := update_of_ne hx _ _
    rw [Flagged, hflag]
    exact h

theorem CombatLinked.updateState (h : l.CombatLinked) (a : ObjectGuid) :
    (l.updateState a).CombatLinked :=
  ⟨h.combat, h.distinct, h.single, h.fresh⟩

theorem ThreatLinked.updateState (h : l.ThreatLinked) (a : ObjectGuid) :
    (l.updateState a).ThreatLinked :=
  ⟨h.threat, h.threatened, h.fresh⟩

/-- Flags that are only wrong for `a` and `b` are put right by two updates. -/
theorem flagged_updateState_pair (h : ∀ x, x ≠ a → x ≠ b → l.Flagged x) (x : ObjectGuid) :
    ((l.updateState a).updateState b).Flagged x := by
  by_cases hb : x = b
  · subst hb
    exact flagged_updateState_self _ x
  by_cases ha : x = a
  · subst ha
    exact (flagged_updateState_self l x).updateState b
  · exact ((h x ha hb).updateState a).updateState b

/-- Everything is in order except perhaps the flag of `a`. -/
structure ConsistentBut (l : Ledger) (a : ObjectGuid) : Prop where
  combatLinked : l.CombatLinked
  threatLinked : l.ThreatLinked
  covered : l.Covered
  flagged : ∀ x, x ≠ a → l.Flagged x

theorem Consistent.but (h : l.Consistent) (a : ObjectGuid) : l.ConsistentBut a :=
  ⟨h.combatLinked, h.threatLinked, h.covered, fun x _ => h.flagged x⟩

/-- Updating the flag puts it right. -/
theorem ConsistentBut.updateState (h : l.ConsistentBut a) :
    (l.updateState a).Consistent where
  combatLinked := h.combatLinked.updateState a
  threatLinked := h.threatLinked.updateState a
  covered := h.covered
  flagged x := by
    by_cases hx : x = a
    · rw [hx]
      exact flagged_updateState_self l a
    · exact (h.flagged x hx).updateState a

/-! ### Threat -/

/-- Change a two-dimensional map in one place. -/
def update2 (f : ObjectGuid → ObjectGuid → Option RefId) (a b : ObjectGuid)
    (value : Option RefId) (x y : ObjectGuid) : Option RefId :=
  if x = a ∧ y = b then value else f x y

/-- `UnregisterAndFree` of the reference from `a` to `b`. -/
def unregister (id : RefId) (a b : ObjectGuid) : Ledger :=
  { l with
    threat := update2 l.threat a b none
    threatened := update2 l.threatened b a none
    ends := update l.ends id none }

/-- `ClearThreat`. -/
def clear (a b : ObjectGuid) : Ledger :=
  match l.threat a b with
  | none => l
  | some id => l.unregister id a b

theorem ThreatLinked.unregister (h : l.ThreatLinked) (hid : l.ends id = some (a, b)) :
    (l.unregister id a b).ThreatLinked := by
  have hthreat := h.threat
  have hthreatened := h.threatened
  have hself := (hthreat a b id).mpr hid
  have hself' := (hthreatened a b id).mpr hid
  constructor
  · intro x y i
    simp only [Ledger.unregister, update2, update_apply]
    grind
  · intro x y i
    simp only [Ledger.unregister, update2, update_apply]
    grind
  · intro i pair hi
    simp only [Ledger.unregister, update_apply] at hi
    split at hi
    · nomatch hi
    · exact h.fresh i pair hi

theorem ThreatLinked.clear (h : l.ThreatLinked) (a b : ObjectGuid) : (l.clear a b).ThreatLinked := by
  unfold Ledger.clear
  split
  · exact h
  · next id hid => exact h.unregister ((h.threat a b id).mp hid)

/-- Clearing removes the references from `a` to `b`. -/
theorem ends_clear (h : l.ThreatLinked) (a b : ObjectGuid) (id : RefId) :
    (l.clear a b).ends id = if l.ends id = some (a, b) then none else l.ends id := by
  have hid := h.threat a b id
  unfold Ledger.clear
  split
  · next hnone => grind
  · next i hi =>
    have hi' := (h.threat a b i).mp hi
    simp only [Ledger.unregister, update_apply]
    grind

theorem clear_combat (l : Ledger) (a b : ObjectGuid) :
    (l.clear a b).combat = l.combat ∧ (l.clear a b).reference = l.reference ∧
      (l.clear a b).inCombat = l.inCombat ∧ (l.clear a b).next = l.next := by
  unfold Ledger.clear
  split
  · exact ⟨rfl, rfl, rfl, rfl⟩
  · exact ⟨rfl, rfl, rfl, rfl⟩

/-- Clearing keeps the ledger consistent. -/
theorem Consistent.clear (h : l.Consistent) (a b : ObjectGuid) : (l.clear a b).Consistent := by
  obtain ⟨hcombat, hreference, hflag, hnext⟩ := clear_combat l a b
  have hlinked := h.combatLinked
  constructor
  · constructor
    · rw [hcombat, hreference]
      exact hlinked.combat
    · rw [hreference]
      exact hlinked.distinct
    · rw [hreference]
      exact hlinked.single
    · rw [hreference, hnext]
      exact hlinked.fresh
  · exact h.threatLinked.clear a b
  · intro id x y hid
    rw [ends_clear h.threatLinked] at hid
    rw [Joined, hreference]
    split at hid
    · nomatch hid
    · exact h.covered id x y hid
  · intro x
    simp only [Flagged, HasCombat, deref, hcombat, hreference, hflag]
    exact h.flagged x

/-- A new threat reference from `a` to `b`. -/
def newThreat (a b : ObjectGuid) : Ledger :=
  { l with
    threat := update2 l.threat a b (some l.next)
    threatened := update2 l.threatened b a (some l.next)
    ends := update l.ends l.next (some (a, b))
    next := l.next + 1 }

theorem Consistent.newThreat (h : l.Consistent) (hnone : l.threat a b = none)
    (hjoined : l.Joined a b) : (l.newThreat a b).Consistent := by
  have hthreat := h.threatLinked.threat
  have hthreatened := h.threatLinked.threatened
  have hnext : ∀ pair, l.ends l.next ≠ some pair := by
    intro pair hpair
    exact Nat.lt_irrefl _ (h.threatLinked.fresh _ _ hpair)
  constructor
  · constructor
    · exact h.combatLinked.combat
    · exact h.combatLinked.distinct
    · exact h.combatLinked.single
    · intro id ref hid
      exact Nat.lt_succ_of_lt (h.combatLinked.fresh id ref hid)
  · constructor
    · intro x y i
      simp only [Ledger.newThreat, update2, update_apply]
      grind
    · intro x y i
      simp only [Ledger.newThreat, update2, update_apply]
      grind
    · intro id pair hid
      simp only [Ledger.newThreat, update_apply] at hid
      split at hid
      · next heq => exact heq ▸ Nat.lt_succ_self _
      · exact Nat.lt_succ_of_lt (h.threatLinked.fresh id pair hid)
  · intro id x y hid
    simp only [Ledger.newThreat, update_apply] at hid
    split at hid
    · obtain ⟨rfl, rfl⟩ := Prod.mk.inj (some.inj hid)
      exact hjoined
    · exact h.covered id x y hid
  · exact h.flagged

/-! ### Combat -/

/-- Erase one entry of a combat map. -/
def purge (pvp : Bool) (a b : ObjectGuid) : Ledger :=
  { l with
    combat := fun kind x y =>
      if kind = pvp ∧ x = a ∧ y = b then none else l.combat kind x y }

/-- A combat reference leaves both maps and is freed. -/
def remove (id : RefId) (ref : CombatReference) : Ledger :=
  { l with
    combat := fun kind x y =>
      if kind = ref.isPvP ∧ ref.Between x y then none else l.combat kind x y
    reference := update l.reference id none }

/-- `EndCombat`. -/
noncomputable def endCombat (l : Ledger) (id : RefId) (ref : CombatReference) : Ledger :=
  ((((l.clear ref.first ref.second).clear ref.second ref.first).remove id ref).updateState
    ref.first).updateState ref.second

theorem clear_purge (l : Ledger) (pvp : Bool) (a b x y : ObjectGuid) :
    (l.purge pvp a b).clear x y = (l.clear x y).purge pvp a b := by
  unfold clear
  simp only [purge]
  split <;> rfl

theorem remove_purge (l : Ledger) (h : ref.Between a b) :
    (l.purge ref.isPvP a b).remove id ref = l.remove id ref := by
  have hcombat : ((l.purge ref.isPvP a b).remove id ref).combat = (l.remove id ref).combat := by
    ext kind x y : 3
    simp only [remove, purge]
    by_cases hsame : kind = ref.isPvP ∧ ref.Between x y
    · rw [if_pos hsame, if_pos hsame]
    · rw [if_neg hsame, if_neg hsame, if_neg]
      rintro ⟨rfl, rfl, rfl⟩
      exact hsame ⟨rfl, h⟩
  rw [Ledger.ext_iff]
  exact ⟨hcombat, rfl, rfl, rfl, rfl, rfl, rfl⟩

/-- Erasing the entry of one side first makes no difference. -/
theorem endCombat_purge (l : Ledger) (h : ref.Between a b) :
    (l.purge ref.isPvP a b).endCombat id ref = l.endCombat id ref := by
  unfold endCombat
  rw [clear_purge, clear_purge, remove_purge _ h]

/-- Every entry of `id` is an entry between the units of `ref`. -/
def PointsTo (id : RefId) (ref : CombatReference) : Prop :=
  ∀ pvp x y, l.combat pvp x y = some id → pvp = ref.isPvP ∧ ref.Between x y

theorem CombatLinked.pointsTo (h : l.CombatLinked) (hid : l.reference id = some ref) :
    l.PointsTo id ref := by
  intro pvp x y hxy
  obtain ⟨r, hr, hkind, hbetween⟩ := (h.combat pvp x y id).mp hxy
  rw [hid] at hr
  rw [some.inj hr]
  exact ⟨hkind.symm, hbetween⟩

theorem PointsTo.purge (h : l.PointsTo id ref) (pvp : Bool) (a b : ObjectGuid) :
    (l.purge pvp a b).PointsTo id ref := by
  intro kind x y hxy
  simp only [Ledger.purge] at hxy
  split at hxy
  · nomatch hxy
  · exact h kind x y hxy

theorem PointsTo.clear (h : l.PointsTo id ref) (a b : ObjectGuid) :
    (l.clear a b).PointsTo id ref := by
  unfold PointsTo
  rw [(clear_combat l a b).1]
  exact h

/-- Erase both entries, then free: the order of `EndCombat`. -/
theorem purge_purge_combat (l : Ledger) (id : RefId) (ref : CombatReference) :
    ((l.purge ref.isPvP ref.first ref.second).purge ref.isPvP ref.second ref.first).combat =
      (l.remove id ref).combat := by
  ext kind x y : 3
  simp only [purge, remove, CombatReference.Between]
  grind

theorem hasCombat_purge_purge (h : l.PointsTo id ref) (x : ObjectGuid) :
    ((l.purge ref.isPvP ref.first ref.second).purge ref.isPvP ref.second ref.first).HasCombat x ↔
      (l.remove id ref).HasCombat x := by
  have hderef : ∀ pvp y i, (l.remove id ref).combat pvp x y = some i →
      (l.remove id ref).deref i = l.deref i := by
    intro pvp y i hi
    have hne : i ≠ id := by
      rintro rfl
      simp only [remove] at hi
      split at hi
      · nomatch hi
      · next hnot => exact hnot (h pvp x y hi)
    simp only [deref, remove, update_of_ne hne]
  unfold HasCombat
  rw [purge_purge_combat l id ref]
  constructor
  · rintro ⟨pvp, y, i, hi, hactive⟩
    exact ⟨pvp, y, i, hi, (hderef pvp y i hi).symm ▸ hactive⟩
  · rintro ⟨pvp, y, i, hi, hactive⟩
    exact ⟨pvp, y, i, hi, hderef pvp y i hi ▸ hactive⟩

/-- Updating a flag reads nothing but flags and combat. -/
theorem inCombat_updateState_congr {l l' : Ledger} (hflag : l.inCombat = l'.inCombat)
    (hcombat : ∀ x, l.HasCombat x ↔ l'.HasCombat x) (a : ObjectGuid) :
    (l.updateState a).inCombat = (l'.updateState a).inCombat := by
  classical
  simp only [Ledger.updateState, hflag, hcombat]

/-- Two references between the same units are one. -/
theorem CombatLinked.eq_of_between (h : l.CombatLinked) {id' : RefId} {ref' : CombatReference}
    (hid : l.reference id = some ref) (hid' : l.reference id' = some ref') (hab : ref.Between a b)
    (hab' : ref'.Between a b) : id' = id := by
  apply h.single id id' ref ref' hid hid'
  unfold CombatReference.Between at *
  grind

theorem CombatLinked.remove (h : l.CombatLinked) (hid : l.reference id = some ref) :
    (l.remove id ref).CombatLinked := by
  have hreference : ∀ i r, (l.remove id ref).reference i = some r →
      i ≠ id ∧ l.reference i = some r := by
    intro i r hi
    simp only [Ledger.remove, update_apply] at hi
    split at hi
    · nomatch hi
    · next hne => exact ⟨hne, hi⟩
  constructor
  · intro pvp a b i
    simp only [Ledger.remove, update_apply]
    constructor
    · intro hi
      split at hi
      · nomatch hi
      next hnot =>
      obtain ⟨r, hr, hkind, hbetween⟩ := (h.combat pvp a b i).mp hi
      have hne : i ≠ id := by
        rintro rfl
        rw [hid] at hr
        rw [← some.inj hr] at hkind hbetween
        exact hnot ⟨hkind.symm, hbetween⟩
      rw [if_neg hne]
      exact ⟨r, hr, hkind, hbetween⟩
    · rintro ⟨r, hr, hkind, hbetween⟩
      split at hr
      · nomatch hr
      next hne =>
      rw [if_neg]
      · exact (h.combat pvp a b i).mpr ⟨r, hr, hkind, hbetween⟩
      · rintro ⟨-, hsame⟩
        exact hne (h.eq_of_between hid hr hsame hbetween)
  · intro i r hi
    exact h.distinct i r (hreference i r hi).2
  · intro i i' r r' hi hi'
    exact h.single i i' r r' (hreference i r hi).2 (hreference i' r' hi').2
  · intro i r hi
    exact h.fresh i r (hreference i r hi).2

/-- Removing a reference changes nothing for a unit it does not involve. -/
theorem hasCombat_remove (h : l.CombatLinked) (hid : l.reference id = some ref)
    (hfirst : x ≠ ref.first) (hsecond : x ≠ ref.second) :
    (l.remove id ref).HasCombat x ↔ l.HasCombat x := by
  have hapart : ∀ y, ¬ ref.Between x y := by
    rintro y (⟨heq, -⟩ | ⟨-, heq⟩)
    · exact hfirst heq.symm
    · exact hsecond heq.symm
  have hother : ∀ pvp y i, l.combat pvp x y = some i → (l.remove id ref).deref i = l.deref i := by
    intro pvp y i hi
    obtain ⟨r, hr, -, hbetween⟩ := (h.combat pvp x y i).mp hi
    have hne : i ≠ id := by
      rintro rfl
      rw [hid] at hr
      rw [← some.inj hr] at hbetween
      exact hapart y hbetween
    simp only [deref, remove, update_of_ne hne]
  have hcombat : ∀ pvp y, (l.remove id ref).combat pvp x y = l.combat pvp x y := by
    intro pvp y
    exact if_neg fun hsame => hapart y hsame.2
  unfold HasCombat
  constructor
  · rintro ⟨pvp, y, i, hi, hactive⟩
    rw [hcombat] at hi
    rw [hother pvp y i hi] at hactive
    exact ⟨pvp, y, i, hi, hactive⟩
  · rintro ⟨pvp, y, i, hi, hactive⟩
    rw [← hother pvp y i hi] at hactive
    rw [← hcombat] at hi
    exact ⟨pvp, y, i, hi, hactive⟩

/-- Ending combat leaves the entries of other pairs alone. -/
theorem endCombat_combat (l : Ledger) {y : ObjectGuid} (h : ¬ ref.Between x y) (pvp : Bool) :
    (l.endCombat id ref).combat pvp x y = l.combat pvp x y := by
  have hcleared : ((l.clear ref.first ref.second).clear ref.second ref.first).combat =
      l.combat := by
    rw [(clear_combat _ _ _).1, (clear_combat _ _ _).1]
  rw [← hcleared]
  exact if_neg fun hsame => h hsame.2

/-- Ending combat keeps the ledger consistent. -/
theorem Consistent.endCombat (h : l.Consistent) (hid : l.reference id = some ref) :
    (l.endCombat id ref).Consistent := by
  have hcleared := (h.clear ref.first ref.second).clear ref.second ref.first
  have hends : ∀ i x y, ((l.clear ref.first ref.second).clear ref.second ref.first).ends i =
      some (x, y) → ¬ ref.Between x y := by
    intro i x y hi
    rw [ends_clear (h.clear _ _).threatLinked, ends_clear h.threatLinked] at hi
    unfold CombatReference.Between
    grind
  have hid' : ((l.clear ref.first ref.second).clear ref.second ref.first).reference id =
      some ref := by
    rw [(clear_combat _ _ _).2.1, (clear_combat _ _ _).2.1, hid]
  unfold Ledger.endCombat
  generalize (l.clear ref.first ref.second).clear ref.second ref.first = m at *
  constructor
  · exact ((hcleared.combatLinked.remove hid').updateState _).updateState _
  · exact ⟨hcleared.threatLinked.threat, hcleared.threatLinked.threatened,
      hcleared.threatLinked.fresh⟩
  · intro i x y hi
    obtain ⟨j, r, hr, hbetween⟩ := hcleared.covered i x y hi
    have hne : j ≠ id := by
      rintro rfl
      rw [hid'] at hr
      rw [← some.inj hr] at hbetween
      exact hends i x y hi hbetween
    exact ⟨j, r, (update_of_ne hne _ _).trans hr, hbetween⟩
  · apply flagged_updateState_pair
    intro x hfirst hsecond
    rw [Flagged, hasCombat_remove hcleared.combatLinked hid' hfirst hsecond]
    exact hcleared.flagged x

/-- Change a combat reference in place. -/
def modifyReference (id : RefId) (f : CombatReference → CombatReference) : Ledger :=
  { l with reference := update l.reference id ((l.reference id).map f) }

/-- The change keeps the units and the kind of a reference. -/
def KeepsEnds (f : CombatReference → CombatReference) : Prop :=
  ∀ ref, (f ref).first = ref.first ∧ (f ref).second = ref.second ∧ (f ref).isPvP = ref.isPvP

theorem KeepsEnds.between (hf : KeepsEnds f) : (f ref).Between a b ↔ ref.Between a b := by
  unfold CombatReference.Between
  rw [(hf ref).1, (hf ref).2.1]

/-- The reference behind a pointer after a change, and the one it was before. -/
theorem reference_modifyReference (h : (l.modifyReference id f).reference i = some ref) :
    ∃ old, l.reference i = some old ∧ (ref = old ∨ i = id ∧ ref = f old) := by
  simp only [modifyReference, update_apply] at h
  split at h
  · next heq =>
    obtain ⟨old, hold, rfl⟩ := map_eq_some_iff.mp h
    exact ⟨old, heq ▸ hold, .inr ⟨heq, rfl⟩⟩
  · exact ⟨ref, h, .inl rfl⟩

/-- A reference is still there after a change. -/
theorem exists_reference_modifyReference (id : RefId) (hf : KeepsEnds f) {old : CombatReference}
    (h : l.reference i = some old) :
    ∃ ref, (l.modifyReference id f).reference i = some ref ∧ ref.isPvP = old.isPvP ∧
      ∀ a b, ref.Between a b ↔ old.Between a b := by
  simp only [modifyReference, update_apply]
  split
  · next heq =>
    refine ⟨f old, ?_, (hf old).2.2, fun a b => hf.between⟩
    rw [← heq, h, map_some]
  · exact ⟨old, h, rfl, fun a b => Iff.rfl⟩

/-- What a change that keeps the ends cannot alter. -/
theorem keepsEnds_of_reference (hf : KeepsEnds f)
    (h : (l.modifyReference id f).reference i = some ref) :
    ∃ old, l.reference i = some old ∧ ref.first = old.first ∧ ref.second = old.second ∧
      ref.isPvP = old.isPvP := by
  obtain ⟨old, hold, heq⟩ := reference_modifyReference h
  rcases heq with rfl | ⟨-, rfl⟩
  · exact ⟨ref, hold, rfl, rfl, rfl⟩
  · exact ⟨old, hold, hf old⟩

theorem CombatLinked.modifyReference (h : l.CombatLinked) (id : RefId) (hf : KeepsEnds f) :
    (l.modifyReference id f).CombatLinked := by
  constructor
  · intro pvp a b i
    refine (h.combat pvp a b i).trans ⟨?_, ?_⟩
    · rintro ⟨old, hold, hkind, hbetween⟩
      obtain ⟨ref, href, hkind', hbetween'⟩ := exists_reference_modifyReference id hf hold
      exact ⟨ref, href, hkind'.trans hkind, (hbetween' a b).mpr hbetween⟩
    · rintro ⟨ref, href, hkind, hbetween⟩
      obtain ⟨old, hold, hfirst, hsecond, hkind'⟩ := keepsEnds_of_reference hf href
      refine ⟨old, hold, hkind' ▸ hkind, ?_⟩
      rwa [CombatReference.Between, ← hfirst, ← hsecond]
  · intro i ref href
    obtain ⟨old, hold, hfirst, hsecond, -⟩ := keepsEnds_of_reference hf href
    rw [hfirst, hsecond]
    exact h.distinct i old hold
  · intro i i' ref ref' href href' hbetween
    obtain ⟨old, hold, hfirst, hsecond, -⟩ := keepsEnds_of_reference hf href
    obtain ⟨old', hold', hfirst', hsecond', -⟩ := keepsEnds_of_reference hf href'
    apply h.single i i' old old' hold hold'
    rwa [CombatReference.Between, ← hfirst, ← hsecond, ← hfirst', ← hsecond']
  · intro i ref href
    obtain ⟨old, hold, -⟩ := keepsEnds_of_reference hf href
    exact h.fresh i old hold

theorem joined_modifyReference (id : RefId) (hf : KeepsEnds f) :
    (l.modifyReference id f).Joined a b ↔ l.Joined a b := by
  constructor
  · rintro ⟨i, ref, href, hbetween⟩
    obtain ⟨old, hold, hfirst, hsecond, -⟩ := keepsEnds_of_reference hf href
    refine ⟨i, old, hold, ?_⟩
    rwa [CombatReference.Between, ← hfirst, ← hsecond]
  · rintro ⟨i, old, hold, hbetween⟩
    obtain ⟨ref, href, -, hbetween'⟩ := exists_reference_modifyReference id hf hold
    exact ⟨i, ref, href, (hbetween' a b).mpr hbetween⟩

theorem Covered.modifyReference (h : l.Covered) (id : RefId) (hf : KeepsEnds f) :
    (l.modifyReference id f).Covered :=
  fun i a b hi => (joined_modifyReference id hf).mpr (h i a b hi)

/-- A change that is invisible to `x` does not change whether `x` has combat. -/
theorem hasCombat_modifyReference (h : l.CombatLinked)
    (hf : ∀ ref, l.reference id = some ref → (∃ y, ref.Between x y) →
      (f ref).isSuppressedFor x = ref.isSuppressedFor x) :
    (l.modifyReference id f).HasCombat x ↔ l.HasCombat x := by
  have hsame : ∀ pvp y i, l.combat pvp x y = some i →
      ((l.modifyReference id f).deref i).isSuppressedFor x = (l.deref i).isSuppressedFor x := by
    intro pvp y i hi
    obtain ⟨ref, href, -, hbetween⟩ := (h.combat pvp x y i).mp hi
    simp only [deref, modifyReference, update_apply]
    split
    · next heq =>
      subst heq
      rw [href]
      exact hf ref href ⟨y, hbetween⟩
    · rfl
  unfold HasCombat
  constructor
  · rintro ⟨pvp, y, i, hi, hactive⟩
    exact ⟨pvp, y, i, hi, (hsame pvp y i hi).symm.trans hactive⟩
  · rintro ⟨pvp, y, i, hi, hactive⟩
    exact ⟨pvp, y, i, hi, (hsame pvp y i hi).trans hactive⟩

/-- A change that only `who` may see. -/
theorem ConsistentBut.modifyReference {who : ObjectGuid} (h : l.ConsistentBut who)
    (hends : KeepsEnds f)
    (hf : ∀ x, x ≠ who → ∀ ref, l.reference id = some ref → (∃ y, ref.Between x y) →
      (f ref).isSuppressedFor x = ref.isSuppressedFor x) :
    (l.modifyReference id f).ConsistentBut who where
  combatLinked := h.combatLinked.modifyReference id hends
  threatLinked := ⟨h.threatLinked.threat, h.threatLinked.threatened, h.threatLinked.fresh⟩
  covered := h.covered.modifyReference id hends
  flagged x hx := by
    rw [Flagged, hasCombat_modifyReference h.combatLinked (hf x hx)]
    exact h.flagged x hx

/-- A change nobody sees. -/
theorem Consistent.modifyReference_of_invisible (h : l.Consistent) (hends : KeepsEnds f)
    (hf : ∀ ref x, (f ref).isSuppressedFor x = ref.isSuppressedFor x) :
    (l.modifyReference id f).Consistent := by
  constructor
  · exact h.combatLinked.modifyReference id hends
  · exact ⟨h.threatLinked.threat, h.threatLinked.threatened, h.threatLinked.fresh⟩
  · exact h.covered.modifyReference id hends
  · intro x
    rw [Flagged, hasCombat_modifyReference h.combatLinked fun ref _ _ => hf ref x]
    exact h.flagged x

/-- A new combat reference, in both maps. -/
def newCombat (ref : CombatReference) : Ledger :=
  { l with
    combat := fun kind x y =>
      if kind = ref.isPvP ∧ ref.Between x y then some l.next else l.combat kind x y
    reference := update l.reference l.next (some ref)
    next := l.next + 1 }

/-- Beginning combat keeps the ledger consistent. -/
theorem Consistent.newCombat (h : l.Consistent) (hdistinct : ref.first ≠ ref.second)
    (hnew : ¬ l.Joined ref.first ref.second) :
    (((l.newCombat ref).updateState ref.first).updateState ref.second).Consistent := by
  have hnext : ∀ r, l.reference l.next ≠ some r := by
    intro r hr
    exact Nat.lt_irrefl _ (h.combatLinked.fresh _ _ hr)
  have hreference : ∀ i r, (l.newCombat ref).reference i = some r ↔
      (i = l.next ∧ r = ref) ∨ (i ≠ l.next ∧ l.reference i = some r) := by
    intro i r
    simp only [Ledger.newCombat, update_apply]
    grind
  have hold : ∀ i r, l.reference i = some r → (l.newCombat ref).reference i = some r := by
    intro i r hr
    rw [hreference]
    refine .inr ⟨?_, hr⟩
    rintro rfl
    exact hnext r hr
  have hapart : ∀ i r, l.reference i = some r → ∀ a b, r.Between a b → ¬ ref.Between a b := by
    intro i r hr a b hab hab'
    refine hnew ⟨i, r, hr, ?_⟩
    unfold CombatReference.Between at *
    grind
  have hlinked : (l.newCombat ref).CombatLinked := by
    constructor
    · intro pvp a b i
      rw [show (l.newCombat ref).combat pvp a b =
        if pvp = ref.isPvP ∧ ref.Between a b then some l.next else l.combat pvp a b from rfl]
      constructor
      · intro hi
        split at hi
        · next hsame =>
          rw [← some.inj hi]
          exact ⟨ref, (hreference _ _).mpr (.inl ⟨rfl, rfl⟩), hsame.1.symm, hsame.2⟩
        · obtain ⟨r, hr, hkind, hbetween⟩ := (h.combatLinked.combat pvp a b i).mp hi
          exact ⟨r, hold i r hr, hkind, hbetween⟩
      · rintro ⟨r, hr, hkind, hbetween⟩
        rcases (hreference i r).mp hr with ⟨rfl, rfl⟩ | ⟨-, hr⟩
        · rw [if_pos ⟨hkind.symm, hbetween⟩]
        · rw [if_neg fun hsame => hapart i r hr a b hbetween hsame.2]
          exact (h.combatLinked.combat pvp a b i).mpr ⟨r, hr, hkind, hbetween⟩
    · intro i r hr
      rcases (hreference i r).mp hr with ⟨-, rfl⟩ | ⟨-, hr⟩
      · exact hdistinct
      · exact h.combatLinked.distinct i r hr
    · intro i i' r r' hr hr' hbetween
      rcases (hreference i r).mp hr with ⟨hi, hnewest⟩ | ⟨-, hold⟩
      · rcases (hreference i' r').mp hr' with ⟨hi', -⟩ | ⟨-, hold'⟩
        · rw [hi, hi']
        · rw [hnewest] at hbetween
          exact absurd (.inl ⟨rfl, rfl⟩) (hapart i' r' hold' _ _ hbetween)
      · rcases (hreference i' r').mp hr' with ⟨-, hnewest'⟩ | ⟨-, hold'⟩
        · rw [hnewest'] at hbetween
          exact absurd hbetween (hapart i r hold _ _ (.inl ⟨rfl, rfl⟩))
        · exact h.combatLinked.single i i' r r' hold hold' hbetween
    · intro i r hr
      rcases (hreference i r).mp hr with ⟨rfl, -⟩ | ⟨-, hr⟩
      · exact Nat.lt_succ_self _
      · exact Nat.lt_succ_of_lt (h.combatLinked.fresh i r hr)
  constructor
  · exact (hlinked.updateState _).updateState _
  · refine ⟨h.threatLinked.threat, h.threatLinked.threatened, ?_⟩
    intro i pair hi
    exact Nat.lt_succ_of_lt (h.threatLinked.fresh i pair hi)
  · intro i a b hi
    obtain ⟨j, r, hr, hbetween⟩ := h.covered i a b hi
    exact ⟨j, r, hold j r hr, hbetween⟩
  · apply flagged_updateState_pair
    intro x hfirst hsecond
    have hcombat : ∀ pvp y, (l.newCombat ref).combat pvp x y = l.combat pvp x y := by
      intro pvp y
      apply if_neg
      rintro ⟨-, ⟨heq, -⟩ | ⟨-, heq⟩⟩
      · exact hfirst heq.symm
      · exact hsecond heq.symm
    have hderef : ∀ pvp y i, l.combat pvp x y = some i →
        (l.newCombat ref).deref i = l.deref i := by
      intro pvp y i hi
      obtain ⟨r, hr, -⟩ := (h.combatLinked.combat pvp x y i).mp hi
      rw [deref, deref, hold i r hr, hr]
    have hsame : (l.newCombat ref).HasCombat x ↔ l.HasCombat x := by
      unfold HasCombat
      constructor
      · rintro ⟨pvp, y, i, hi, hactive⟩
        rw [hcombat] at hi
        exact ⟨pvp, y, i, hi, hderef pvp y i hi ▸ hactive⟩
      · rintro ⟨pvp, y, i, hi, hactive⟩
        exact ⟨pvp, y, i, (hcombat pvp y).trans hi, (hderef pvp y i hi).symm ▸ hactive⟩
    rw [Flagged, hsame]
    exact h.flagged x

/-- No references, no flags. -/
def empty : Ledger where
  combat _ _ _ := none
  reference _ := none
  threat _ _ := none
  threatened _ _ := none
  ends _ := none
  inCombat _ := false
  next := 0

theorem consistent_empty : empty.Consistent where
  combatLinked := ⟨by simp [empty], by simp [empty], by simp [empty], by simp [empty]⟩
  threatLinked := ⟨by simp [empty], by simp [empty], by simp [empty]⟩
  covered := by simp [Covered, empty]
  flagged := by simp [Flagged, HasCombat, empty]

end Ledger

end TrinityCore.Combat
