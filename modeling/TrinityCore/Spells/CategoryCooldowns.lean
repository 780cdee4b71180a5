import Mathlib.Data.List.Dedup
import TrinityCore.Spells.SpellHistory

/-!
# Category cooldowns and the entries they point to

An operation that stores a spell entry anew may take its category away while a category
cooldown still points to it. That is what separates the runs whose category cooldowns always
refer to live entries from the others.
-/

namespace TrinityCore.Spells

open List NodeMap SpellHistory StateMachine

variable {data : GameData} {now : Time} {h h' : SpellHistory}

/-- The spells a lockout goes through are different. -/
theorem Owner.nodup_knownSpells (owner : Owner) : owner.knownSpells.Nodup := by
  unfold knownSpells
  exact (perm_insertionSort _ _).nodup_iff.mpr (nodup_dedup _)

variable {spells : List UInt32}

namespace SpellHistory

/-- Every category cooldown refers to a stored entry of its category. -/
def CategoriesLive (h : SpellHistory) : Prop :=
  Live CooldownEntry.categoryId h.spellCooldowns h.categoryCooldowns

/-- Storing the entry of a spell with a category does not take the entry away from a category
cooldown that refers to it. -/
def keepsCategory (h : SpellHistory) (spellId categoryId : UInt32) : Bool :=
  keepsAttr CooldownEntry.categoryId h.spellCooldowns h.categoryCooldowns spellId categoryId

/-! ### Single operations -/

theorem addCooldown_live_iff (hlive : h.CategoriesLive) (spellId itemId : UInt32)
    (cooldownEnd : Time) (categoryId : UInt32) (categoryEnd : Time) (onHold : Bool) :
    (h.addCooldown spellId itemId cooldownEnd categoryId categoryEnd onHold).CategoriesLive ↔
      h.keepsCategory spellId categoryId = true := by
  unfold addCooldown CategoriesLive
  dsimp only
  split
  · exact Live.write_insert_iff hlive
  · exact Live.write_iff hlive

theorem startCooldown_live_iff (hlive : h.CategoriesLive) {spellInfo : SpellInfo}
    {itemId : UInt32} {mods : CooldownMods} {onHold : Bool}
    (hstep : h.startCooldown data now spellInfo itemId mods onHold = .ok h') :
    h'.CategoriesLive ↔ ∀ e, startedCooldown data now spellInfo itemId mods onHold = .ok (some e) →
      h.keepsCategory e.spellId e.categoryId = true := by
  unfold startCooldown at hstep
  cases hstarted : startedCooldown data now spellInfo itemId mods onHold with
  | error fault =>
    rw [hstarted] at hstep
    cases hstep
  | ok started =>
    rw [hstarted] at hstep
    cases started with
    | none =>
      cases hstep
      exact ⟨fun _ e he => (nomatch he), fun _ => hlive⟩
    | some e =>
      cases hstep
      refine (addCooldown_live_iff hlive ..).trans
        ⟨fun hkeep e' he' => ?_, fun hall => hall e rfl⟩
      cases he'
      exact hkeep

/-- Starting a cooldown reads no entry. -/
theorem startCooldown_ne_dangling (h : SpellHistory) (spellInfo : SpellInfo) (itemId : UInt32)
    (mods : CooldownMods) (onHold : Bool) :
    h.startCooldown data now spellInfo itemId mods onHold ≠ .error .dangling := by
  have hmods : ∀ categoryId cooldown categoryCooldown,
      mods.categoryMods categoryId cooldown categoryCooldown ≠ .error .dangling := by
    intro categoryId cooldown categoryCooldown
    unfold CooldownMods.categoryMods
    split
    · exact nofun
    · dsimp only
      split <;> exact nofun
  intro hfault
  unfold startCooldown at hfault
  split at hfault
  · next fault hstarted =>
    cases hfault
    unfold startedCooldown at hstarted
    dsimp only at hstarted
    split at hstarted
    · cases hstarted
    · split at hstarted
      · next fault herror =>
        cases hstarted
        exact hmods _ _ _ herror
      · rw [← apply_ite Except.ok] at hstarted
        cases hstarted
  · cases hfault
  · cases hfault

theorem eraseCooldown_live (hlive : h.CategoriesLive) (spellId : UInt32) :
    (h.eraseCooldown spellId).CategoriesLive := by
  unfold eraseCooldown
  split
  · exact hlive
  · next node hnode => exact Live.erase hlive hnode

/-- An entry may be stored again with its own category. -/
theorem keepsCategory_self {spellId : UInt32} {node : Node CooldownEntry}
    (hnode : h.spellCooldowns.find spellId = some node) :
    h.keepsCategory spellId node.value.categoryId = true := by
  unfold keepsCategory
  rw [keepsAttr_iff]
  intro n hn _
  cases hn.symm.trans hnode
  rfl

theorem modifyCooldown_live (hlive : h.CategoriesLive) (spellId : UInt32)
    (cooldownModMs : Int32) : (h.modifyCooldown now spellId cooldownModMs).CategoriesLive := by
  unfold modifyCooldown
  split
  · exact hlive
  · next node hnode =>
    split
    · exact hlive
    · dsimp only
      split
      · exact (Live.write_iff hlive).mpr (keepsCategory_self hnode)
      · exact eraseCooldown_live hlive spellId

theorem resetIf_live (hlive : h.CategoriesLive) (predicate : UInt32 → CooldownEntry → Bool)
    (spellId : UInt32) : (resetIf predicate h spellId).CategoriesLive := by
  unfold resetIf
  split
  · exact hlive
  · split
    · exact eraseCooldown_live hlive spellId
    · exact hlive

theorem resetCooldowns_live (hlive : h.CategoriesLive)
    (predicate : UInt32 → CooldownEntry → Bool) : (h.resetCooldowns predicate).CategoriesLive :=
  run_invariant hlive (fun _ spellId ht => resetIf_live ht predicate spellId) _

theorem resetAllCooldowns_live : h.resetAllCooldowns.CategoriesLive := live_empty _

/-! ### Update -/

/-- A round of the first loop reads through a live reference. -/
theorem updateCategory_live (hlive : h.CategoriesLive) (categoryId : UInt32) :
    ∃ h', updateCategory now h categoryId = .ok h' ∧ h'.CategoriesLive := by
  unfold updateCategory
  split
  · exact ⟨h, rfl, hlive⟩
  · next ref href =>
    obtain ⟨e, he⟩ := Stored.deref (Live.stored hlive) href
    rw [he]
    refine ⟨_, rfl, ?_⟩
    split
    · exact Live.eraseIndex hlive categoryId
    · exact hlive

theorem updateCategories_live (hlive : h.CategoriesLive) (categories : List UInt32) :
    ∃ h', categories.foldlM (updateCategory now) h = .ok h' ∧ h'.CategoriesLive := by
  induction categories generalizing h with
  | nil => exact ⟨h, rfl, hlive⟩
  | cons categoryId categories ih =>
    obtain ⟨t, ht, htlive⟩ := @updateCategory_live now h hlive categoryId
    obtain ⟨h', hh', hlive'⟩ := ih htlive
    refine ⟨h', ?_, hlive'⟩
    rw [foldlM_cons, ht]
    exact hh'

/-- `Update` never reads through a dangling pointer of a live history, and keeps it live. -/
theorem update_live (hlive : h.CategoriesLive) :
    ∃ h', h.update now = .ok h' ∧ h'.CategoriesLive := by
  obtain ⟨t, ht, htlive⟩ := @updateCategories_live now h hlive h.categoryCooldowns.keys
  refine ⟨t.resetCooldowns fun _ e => e.cooldownEnd < now, ?_, resetCooldowns_live htlive _⟩
  unfold update
  rw [ht]

/-! ### Loading -/

/-- Rows of different spells are loaded under free keys. -/
theorem loadFromDB_live (rows : List CooldownRow) (hrows : (rows.map CooldownRow.spell).Nodup)
    (hlive : h.CategoriesLive)
    (hfree : ∀ row ∈ rows, h.spellCooldowns.find row.spell = none) :
    (h.loadFromDB data rows).CategoriesLive := by
  induction rows generalizing h with
  | nil => exact hlive
  | cons row rows ih =>
    rw [map_cons, nodup_cons] at hrows
    rw [forall_mem_cons] at hfree
    show ((loadRow data h row).loadFromDB data rows).CategoriesLive
    refine ih hrows.2 ?_ ?_
    · unfold loadRow
      split
      · exact hlive
      · exact (addCooldown_live_iff hlive ..).mpr (keepsAttr_of_find_none hfree.1)
    · intro other hother
      have hne : other.spell ≠ row.spell := by
        intro heq
        exact hrows.1 (heq ▸ mem_map_of_mem hother)
      unfold loadRow
      split
      · exact hfree.2 other hother
      · exact (find_write_of_ne hne).trans (hfree.2 other hother)

/-! ### School lockouts -/

/-- A lockout that stores the entry of a spell anew does not take it away from a category. -/
def KeepsLocked (data : GameData) (now : Time) (schoolMask lockoutTime : UInt32)
    (h : SpellHistory) (spellId : UInt32) : Prop :=
  ∀ spellInfo node, data.getSpellInfo spellId = some spellInfo →
    spellInfo.silencedBy schoolMask = true → h.spellCooldowns.find spellId = some node →
    remainingUntil now node.value.cooldownEnd < lockoutTime → h.keepsCategory spellId 0 = true

variable {schoolMask lockoutTime : UInt32} {spellId : UInt32}

/-- A round of the lockout stores an entry without a category, or does nothing. -/
theorem lockSpell_cases (hstep : lockSpell data now schoolMask lockoutTime h spellId = .ok h') :
    (h' = h ∧ ∀ spellInfo node, data.getSpellInfo spellId = some spellInfo →
      spellInfo.silencedBy schoolMask = true → h.spellCooldowns.find spellId = some node →
      ¬remainingUntil now node.value.cooldownEnd < lockoutTime) ∨
    (h' = h.addCooldown spellId 0 (now + milliseconds lockoutTime.toNat) 0 now false ∧
      ∃ spellInfo, data.getSpellInfo spellId = some spellInfo ∧
        spellInfo.silencedBy schoolMask = true ∧
        ∀ node, h.spellCooldowns.find spellId = some node →
          remainingUntil now node.value.cooldownEnd < lockoutTime) := by
  unfold lockSpell at hstep
  cases hinfo : data.getSpellInfo spellId with
  | none =>
    rw [hinfo] at hstep
    cases hstep
  | some spellInfo =>
    rw [hinfo] at hstep
    dsimp only at hstep
    have hid : spellInfo.id = spellId := data.id_eq spellId spellInfo hinfo
    by_cases hsilenced : spellInfo.silencedBy schoolMask = true
    · rw [hsilenced] at hstep
      cases hremaining : h.getRemainingCooldown now spellInfo with
      | error fault =>
        rw [hremaining] at hstep
        cases hstep
      | ok remaining =>
        rw [hremaining] at hstep
        have hown : ∀ node, h.spellCooldowns.find spellId = some node →
            remaining = remainingUntil now node.value.cooldownEnd := by
          intro node hnode
          unfold getRemainingCooldown at hremaining
          rw [hid, hnode] at hremaining
          cases hremaining
          rfl
        by_cases hlt : remaining < lockoutTime
        · right
          simp only [Bool.not_true, Bool.false_eq_true, if_false, if_pos hlt] at hstep
          cases hstep
          refine ⟨rfl, spellInfo, rfl, hsilenced, fun node hnode => ?_⟩
          rw [← hown node hnode]
          exact hlt
        · left
          simp only [Bool.not_true, Bool.false_eq_true, if_false, if_neg hlt] at hstep
          cases hstep
          refine ⟨rfl, fun _ node _ _ hnode => ?_⟩
          rw [← hown node hnode]
          exact hlt
    · left
      rw [Bool.not_eq_true] at hsilenced
      rw [hsilenced] at hstep
      cases hstep
      refine ⟨rfl, fun info node hinfo' hs => ?_⟩
      cases hinfo'
      rw [hsilenced] at hs
      cases hs

/-- Locking never reads through a dangling pointer. -/
theorem lockSpells_ne_dangling
    (hstored : Stored h.spellCooldowns h.categoryCooldowns) (spells : List UInt32) :
    spells.foldlM (lockSpell data now schoolMask lockoutTime) h ≠ .error .dangling := by
  induction spells generalizing h with
  | nil => exact nofun
  | cons spellId spells ih =>
    rw [foldlM_cons]
    cases ht : lockSpell data now schoolMask lockoutTime h spellId with
    | ok t =>
      refine ih ?_
      obtain ⟨rfl, -⟩ | ⟨rfl, -⟩ := lockSpell_cases ht
      · exact hstored
      · exact hstored.write _ _
    | error fault =>
      intro hdangling
      cases hdangling
      unfold lockSpell at ht
      split at ht
      · cases ht
      · split at ht
        · cases ht
        · split at ht
          · next spellInfo _ _ fault hfault =>
            cases ht
            unfold getRemainingCooldown at hfault
            split at hfault
            · cases hfault
            · split at hfault
              · cases hfault
              · next ref href =>
                obtain ⟨e, he⟩ := hstored.deref href
                rw [he] at hfault
                cases hfault
          · cases ht

/-- Locking keeps the history live exactly when every lockout entry may be stored. -/
theorem lockSpells_live_iff (hlive : h.CategoriesLive) (hspells : spells.Nodup)
    (hstep : spells.foldlM (lockSpell data now schoolMask lockoutTime) h = .ok h') :
    h'.CategoriesLive ↔
      ∀ spellId ∈ spells, KeepsLocked data now schoolMask lockoutTime h spellId := by
  refine live_foldlM_iff categoryCooldowns ?_ ?_ ?_ ?_ hspells hstep hlive
  · intro s spellId s' hs
    obtain ⟨rfl, -⟩ | ⟨rfl, -⟩ := lockSpell_cases hs
    · rfl
    · rfl
  · intro s spellId s' hs other hne
    obtain ⟨rfl, -⟩ | ⟨rfl, -⟩ := lockSpell_cases hs
    · exact ⟨rfl, Iff.rfl⟩
    · have hfind : (s.addCooldown spellId 0 (now + milliseconds lockoutTime.toNat) 0 now
          false).spellCooldowns.find other = s.spellCooldowns.find other :=
        find_write_of_ne hne
      refine ⟨hfind, ?_⟩
      unfold KeepsLocked keepsCategory
      rw [hfind, keepsAttr_congr hfind]
      rfl
  · intro s spellId s' hs hslive hkeeps
    obtain ⟨rfl, -⟩ | ⟨rfl, spellInfo, hinfo, hsilenced, hlt⟩ := lockSpell_cases hs
    · exact hslive
    · refine (addCooldown_live_iff hslive ..).mpr ?_
      cases hnode : s.spellCooldowns.find spellId with
      | none => exact keepsAttr_of_find_none hnode
      | some node => exact hkeeps spellInfo node hinfo hsilenced hnode (hlt node hnode)
  · intro s spellId s' hs _ hkeeps
    obtain ⟨rfl, hnot⟩ | ⟨rfl, -⟩ := lockSpell_cases hs
    · refine absurd ?_ hkeeps
      intro spellInfo node hinfo hsilenced hnode hlt
      exact absurd hlt (hnot spellInfo node hinfo hsilenced hnode)
    · refine stale_write ?_
      intro hkeep
      exact hkeeps fun _ _ _ _ _ _ => hkeep

theorem lockSpellSchool_live_iff (hlive : h.CategoriesLive) {owner : Owner}
    (hstep : h.lockSpellSchool data now schoolMask lockoutTime owner = .ok h') :
    h'.CategoriesLive ↔
      ∀ spellId ∈ owner.knownSpells, KeepsLocked data now schoolMask lockoutTime h spellId := by
  unfold lockSpellSchool at hstep
  refine (lockSpells_live_iff ?_ owner.nodup_knownSpells hstep).trans ?_
  · exact hlive
  · exact Iff.rfl

/-! ### The end of a duel -/

/-- Whether a spell counts as one of a profession. -/
def isProfession (data : GameData) (spellId : UInt32) : Bool :=
  (data.getSpellInfo spellId).any SpellInfo.isProfession

/-- Restoring the saved entry of a spell does not take the stored one away from a category. -/
def KeepsSaved (h : SpellHistory) (spellId : UInt32) : Prop :=
  ∀ saved node, h.spellCooldownsBeforeDuel.lookup spellId = some saved →
    h.spellCooldowns.find spellId = some node → saved.onHold = false →
    node.value.onHold = false → h.keepsCategory spellId saved.categoryId = true

/-- The first loop saves the entries of profession spells, and nothing else. -/
theorem keepProfession_spec (hstep : keepProfession data h spellId = .ok h') :
    h'.spellCooldowns = h.spellCooldowns ∧ h'.categoryCooldowns = h.categoryCooldowns ∧
      ∀ k node, h.spellCooldowns.find k = some node →
        h'.spellCooldownsBeforeDuel.lookup k =
          if k = spellId ∧ isProfession data k = true then some node.value
          else h.spellCooldownsBeforeDuel.lookup k := by
  unfold keepProfession at hstep
  cases hinfo : data.getSpellInfo spellId with
  | none =>
    rw [hinfo] at hstep
    cases hstep
  | some spellInfo =>
    rw [hinfo] at hstep
    have hprof : isProfession data spellId = spellInfo.isProfession := by
      unfold isProfession
      rw [hinfo]
      rfl
    cases hnode : h.spellCooldowns.find spellId with
    | none =>
      rw [hnode] at hstep
      cases hstep
      refine ⟨rfl, rfl, fun k node hk => (if_neg ?_).symm⟩
      rintro ⟨rfl, -⟩
      cases hnode.symm.trans hk
    | some own =>
      rw [hnode] at hstep
      dsimp only at hstep
      by_cases hp : spellInfo.isProfession = true
      · rw [if_pos hp] at hstep
        cases hstep
        refine ⟨rfl, rfl, fun k node hk => ?_⟩
        show (h.spellCooldownsBeforeDuel.insert spellId own.value).lookup k = _
        rw [CountedMap.lookup_insert_if]
        by_cases heq : k = spellId
        · subst heq
          rw [if_pos rfl, if_pos ⟨rfl, hprof.trans hp⟩]
          cases hnode.symm.trans hk
          rfl
        · rw [if_neg heq, if_neg fun hand => heq hand.1]
      · rw [if_neg hp] at hstep
        cases hstep
        refine ⟨rfl, rfl, fun k node _ => (if_neg ?_).symm⟩
        rintro ⟨rfl, hprofession⟩
        exact hp (hprof.symm.trans hprofession)

/-- The loops at the end of a duel read through no pointer. -/
theorem restoreCooldownStateAfterDuel_ne_dangling (h : SpellHistory) (owner : Owner) :
    h.restoreCooldownStateAfterDuel data owner ≠ .error .dangling := by
  have hloop : ∀ (spells : List UInt32) (s : SpellHistory),
      spells.foldlM (keepProfession data) s ≠ .error .dangling := by
    intro spells
    induction spells with
    | nil => exact fun _ => nofun
    | cons spellId spells ih =>
      intro s
      rw [foldlM_cons]
      cases ht : keepProfession data s spellId with
      | ok t => exact ih t
      | error fault =>
        intro hdangling
        cases hdangling
        unfold keepProfession at ht
        split at ht
        · cases ht
        · split at ht <;> cases ht
  unfold restoreCooldownStateAfterDuel
  split
  · split
    · next fault herror =>
      intro hfault
      cases hfault
      exact hloop _ _ herror
    · exact nofun
  · exact nofun

theorem keepProfessions_spec (hstep : spells.foldlM (keepProfession data) h = .ok h') :
    h'.spellCooldowns = h.spellCooldowns ∧ h'.categoryCooldowns = h.categoryCooldowns ∧
      ∀ k node, h.spellCooldowns.find k = some node →
        h'.spellCooldownsBeforeDuel.lookup k =
          if k ∈ spells ∧ isProfession data k = true then some node.value
          else h.spellCooldownsBeforeDuel.lookup k := by
  induction spells generalizing h with
  | nil =>
    cases hstep
    exact ⟨rfl, rfl, fun k node _ => by simp⟩
  | cons spellId spells ih =>
    obtain ⟨t, ht, hloop⟩ := foldlM_cons_eq_ok.mp hstep
    obtain ⟨hspells, hcategories, hfirst⟩ := keepProfession_spec ht
    obtain ⟨hspells', hcategories', hrest⟩ := ih hloop
    refine ⟨hspells'.trans hspells, hcategories'.trans hcategories, fun k node hk => ?_⟩
    rw [hrest k node (hspells ▸ hk), hfirst k node hk]
    by_cases hp : isProfession data k = true
    · by_cases heq : k = spellId
      · simp [heq, heq ▸ hp]
      · simp [heq, hp]
    · simp [hp]

/-- A round of the second loop stores the saved entry when neither is on hold. -/
theorem restoreSaved_cases (h : SpellHistory) (spellId : UInt32) :
    (restoreSaved h spellId = h ∧ KeepsSaved h spellId) ∨
      ∃ saved node,
        restoreSaved h spellId = { h with spellCooldowns := h.spellCooldowns.write spellId saved } ∧
        h.spellCooldownsBeforeDuel.lookup spellId = some saved ∧
        h.spellCooldowns.find spellId = some node ∧ saved.onHold = false ∧
        node.value.onHold = false := by
  unfold restoreSaved
  split
  · next saved node hsaved hnode =>
    by_cases hhold : (!saved.onHold && !node.value.onHold) = true
    · right
      refine ⟨saved, node, if_pos hhold, hsaved, hnode, ?_⟩
      simpa using hhold
    · left
      refine ⟨if_neg hhold, fun saved' node' hsaved' hnode' hs hn => absurd ?_ hhold⟩
      cases hsaved'.symm.trans hsaved
      cases hnode'.symm.trans hnode
      rw [hs, hn]
      rfl
  · next hnone =>
    left
    exact ⟨rfl, fun saved node hsaved hnode => absurd hnode (hnone saved node hsaved)⟩

/-- The second loop keeps the history live exactly when every saved entry may be stored. -/
theorem restoreSaved_live_iff (hlive : h.CategoriesLive) (hspells : spells.Nodup) :
    (spells.foldl restoreSaved h).CategoriesLive ↔ ∀ spellId ∈ spells, KeepsSaved h spellId := by
  have hfold : spells.foldlM (fun s k => (.ok (restoreSaved s k) : Except Fault SpellHistory)) h =
      .ok (spells.foldl restoreSaved h) := foldlM_pure
  refine live_foldlM_iff categoryCooldowns ?_ ?_ ?_ ?_ hspells hfold hlive
  · intro s k s' hs
    cases hs
    obtain ⟨heq, -⟩ | ⟨saved, node, heq, -⟩ := restoreSaved_cases s k
    · rw [heq]
    · rw [heq]
  · intro s k s' hs other hne
    cases hs
    obtain ⟨heq, -⟩ | ⟨saved, node, heq, -⟩ := restoreSaved_cases s k
    · rw [heq]
      exact ⟨rfl, Iff.rfl⟩
    · rw [heq]
      have hfind : (s.spellCooldowns.write k saved).find other = s.spellCooldowns.find other :=
        find_write_of_ne hne
      refine ⟨hfind, ?_⟩
      unfold KeepsSaved keepsCategory
      simp only [hfind, keepsAttr_congr hfind]
  · intro s k s' hs hslive hkeeps
    cases hs
    obtain ⟨heq, -⟩ | ⟨saved, node, heq, hsaved, hnode, hs, hn⟩ := restoreSaved_cases s k
    · rw [heq]
      exact hslive
    · rw [heq]
      exact (Live.write_iff hslive).mpr (hkeeps saved node hsaved hnode hs hn)
  · intro s k s' hs _ hkeeps
    cases hs
    obtain ⟨-, hall⟩ | ⟨saved, node, heq, hsaved, hnode, -⟩ := restoreSaved_cases s k
    · exact absurd hall hkeeps
    · rw [heq]
      refine stale_write fun hkeep => hkeeps ?_
      intro saved' node' hsaved' _ _ _
      cases hsaved'.symm.trans hsaved
      exact hkeep

/-- The end of a duel keeps the history live exactly when every entry saved before the duel,
of a spell of no profession, may be stored. -/
theorem restoreCooldownStateAfterDuel_live_iff (hlive : h.CategoriesLive)
    (spells : List (UInt32 × Bool))
    (hstep : h.restoreCooldownStateAfterDuel data (.player spells) = .ok h') :
    h'.CategoriesLive ↔
      ∀ spellId, isProfession data spellId = false → KeepsSaved h spellId := by
  unfold restoreCooldownStateAfterDuel at hstep
  dsimp only at hstep
  cases ht : h.spellCooldowns.keys.foldlM (keepProfession data) h with
  | error fault =>
    rw [ht] at hstep
    cases hstep
  | ok t =>
    rw [ht] at hstep
    cases hstep
    obtain ⟨hspells, hcategories, hsaved⟩ := keepProfessions_spec ht
    have htlive : t.CategoriesLive := by
      unfold CategoriesLive
      rw [hspells, hcategories]
      exact hlive
    have hkeeps : ∀ k c, t.keepsCategory k c = h.keepsCategory k c := by
      intro k c
      unfold keepsCategory
      rw [hspells, hcategories]
    refine (restoreSaved_live_iff htlive t.spellCooldownsBeforeDuel.nodupKeys).trans ?_
    constructor
    · intro hall k hprofession saved node hs hnode hsh hnh
      have hlookup : t.spellCooldownsBeforeDuel.lookup k = some saved := by
        rw [hsaved k node hnode, if_neg (by simp [hprofession]), hs]
      have hmem : k ∈ t.spellCooldownsBeforeDuel.keys := AList.lookup_isSome.mp (hlookup ▸ rfl)
      rw [← hkeeps]
      exact hall k hmem saved node hlookup (hspells ▸ hnode) hsh hnh
    · intro hall k _ saved node hs hnode hsh hnh
      rw [hspells] at hnode
      rw [hkeeps]
      rw [hsaved k node hnode] at hs
      have hkey : k ∈ h.spellCooldowns.keys := mem_keys.mpr (hnode ▸ rfl)
      cases hprofession : isProfession data k with
      | true =>
        rw [if_pos ⟨hkey, hprofession⟩] at hs
        cases hs
        exact keepsCategory_self hnode
      | false =>
        rw [if_neg (by simp [hprofession])] at hs
        exact hall k hprofession saved node hs hnode hsh hnh

end SpellHistory

namespace Op

/-- Cooldowns are loaded into an empty history, with one row for each spell. -/
def Called (h : SpellHistory) : Op → Prop
  | .loadFromDB rows =>
    (∀ spellId, h.spellCooldowns.find spellId = none) ∧ (rows.map CooldownRow.spell).Nodup
  | _ => True

/-- No entry that the operation stores anew loses a category that refers to it. -/
def Keeps (data : GameData) (now : Time) (h : SpellHistory) : Op → Prop
  | .addCooldown spellId _ _ categoryId _ _ => h.keepsCategory spellId categoryId = true
  | .startCooldown spellInfo itemId mods onHold => ∀ e,
    startedCooldown data now spellInfo itemId mods onHold = .ok (some e) →
      h.keepsCategory e.spellId e.categoryId = true
  | .lockSpellSchool schoolMask lockoutTime owner => ∀ spellId ∈ owner.knownSpells,
    h.KeepsLocked data now schoolMask lockoutTime spellId
  | .restoreCooldownStateAfterDuel (.player _) => ∀ spellId,
    isProfession data spellId = false → h.KeepsSaved spellId
  | _ => True

/-- A step from a live history leads to a live one exactly when it keeps the categories. -/
theorem live_iff (op : Op) (hlive : h.CategoriesLive) (hcalled : op.Called h)
    (hstep : op.run data now h = .ok h') : h'.CategoriesLive ↔ op.Keeps data now h := by
  cases op with
  | addCooldown spellId itemId cooldownEnd categoryId categoryEnd onHold =>
    cases hstep
    exact addCooldown_live_iff hlive ..
  | startCooldown spellInfo itemId mods onHold =>
    exact startCooldown_live_iff hlive hstep
  | lockSpellSchool schoolMask lockoutTime owner =>
    exact lockSpellSchool_live_iff hlive hstep
  | modifyCooldown spellId cooldownModMs =>
    cases hstep
    exact iff_of_true (modifyCooldown_live hlive spellId cooldownModMs) trivial
  | resetCooldown spellId =>
    cases hstep
    exact iff_of_true (eraseCooldown_live hlive spellId) trivial
  | resetCooldowns predicate =>
    cases hstep
    exact iff_of_true (resetCooldowns_live hlive predicate) trivial
  | resetAllCooldowns =>
    cases hstep
    exact iff_of_true resetAllCooldowns_live trivial
  | update =>
    obtain ⟨t, ht, htlive⟩ := @SpellHistory.update_live now h hlive
    cases ht.symm.trans hstep
    exact iff_of_true htlive trivial
  | loadFromDB rows =>
    cases hstep
    exact iff_of_true (loadFromDB_live rows hcalled.2 hlive fun _ _ => hcalled.1 _)
      trivial
  | saveCooldownStateBeforeDuel =>
    cases hstep
    exact iff_of_true hlive trivial
  | restoreCooldownStateAfterDuel owner =>
    cases owner with
    | player spells => exact restoreCooldownStateAfterDuel_live_iff hlive spells hstep
    | pet spells =>
      cases hstep
      exact iff_of_true hlive trivial
    | creature spells =>
      cases hstep
      exact iff_of_true hlive trivial

/-- No operation reads through a dangling pointer of a live history. -/
theorem run_ne_dangling (op : Op) (hlive : h.CategoriesLive) :
    op.run data now h ≠ .error .dangling := by
  cases op with
  | startCooldown spellInfo itemId mods onHold =>
    exact startCooldown_ne_dangling h spellInfo itemId mods onHold
  | lockSpellSchool schoolMask lockoutTime owner =>
    show h.lockSpellSchool data now schoolMask lockoutTime owner ≠ _
    unfold SpellHistory.lockSpellSchool
    refine SpellHistory.lockSpells_ne_dangling ?_ _
    exact Live.stored hlive
  | update =>
    obtain ⟨t, ht, -⟩ := @SpellHistory.update_live now h hlive
    intro hstep
    cases ht.symm.trans hstep
  | restoreCooldownStateAfterDuel owner =>
    exact restoreCooldownStateAfterDuel_ne_dangling h owner
  | _ => exact nofun

end Op

/-! ### Runs -/

/-- The operation of a step, if no fault has ended the run, meets a condition. -/
def AtOp (ok : Time → SpellHistory → Op → Prop) : Except Fault SpellHistory → Time × Op → Prop
  | .error _, _ => True
  | .ok h, (now, op) => ok now h op

/-- In a run that no assertion ends, no step fails one. -/
theorem admits_of_run_ne {s : Except Fault SpellHistory} {events : List (Time × Op)}
    (hcalled : StateMachine.Admits (step data) (AtOp fun _ h op => op.Called h) s events)
    (hassert : run (step data) s events ≠ .error .assertion) :
    StateMachine.Admits (step data)
      (AtOp fun now h op => op.Called h ∧ op.run data now h ≠ .error .assertion) s events := by
  have hstuck : ∀ events : List (Time × Op),
      run (step data) (.error .assertion) events = .error .assertion := by
    intro events
    induction events with
    | nil => rfl
    | cons e events ih => exact ih
  induction events generalizing s with
  | nil => trivial
  | cons e events ih =>
    refine ⟨?_, ih hcalled.2 hassert⟩
    cases s with
    | error fault => trivial
    | ok h =>
      refine ⟨hcalled.1, fun hfault => hassert ?_⟩
      show run (step data) (e.2.run data e.1 h) events = _
      rw [hfault]
      exact hstuck events

/-- The category cooldowns refer to live entries in every history a run reaches exactly when no
step stores an entry anew under another category while its category refers to it. -/
theorem run_categories_live_iff (data : GameData) (events : List (Time × Op))
    (hcalled : StateMachine.Admits (step data) (AtOp fun _ h op => op.Called h) (.ok {}) events)
    (hassert : StateMachine.run (step data) (.ok {}) events ≠ .error .assertion) :
    (∀ before, before <+: events → ∀ h, StateMachine.run (step data) (.ok {}) before = .ok h →
      h.CategoriesLive) ↔
    StateMachine.Admits (step data) (AtOp fun now h op => op.Keeps data now h) (.ok {}) events := by
  refine StateMachine.run_prefixes_iff (fun s => ∀ h, s = .ok h → h.CategoriesLive)
    ?_ ?_ (admits_of_run_ne hcalled hassert)
  · intro h hh
    cases hh
    exact live_empty _
  · intro s e hinv hcalled
    cases s with
    | error fault => exact iff_of_true (fun h hh => nomatch hh) trivial
    | ok h =>
      have hlive : h.CategoriesLive := hinv h rfl
      cases hrun : e.2.run data e.1 h with
      | error fault =>
        cases fault with
        | assertion => exact absurd hrun hcalled.2
        | dangling => exact absurd hrun (e.2.run_ne_dangling hlive)
      | ok h' =>
        refine Iff.trans ?_ (e.2.live_iff hlive hcalled.1 hrun)
        exact ⟨fun hall => hall h' hrun, fun hlive' t ht => by
          cases hrun.symm.trans ht
          exact hlive'⟩

/-- The fire spells of a mage: the one spell there is may be silenced. -/
def fireData : GameData where
  getSpellInfo id := if id = 133 then
    some
      { id := 133
        category := 5
        preventionType := SPELL_PREVENTION_TYPE_SILENCE
        schoolMask := 4 }
    else none
  id_eq := by
    intro id spellInfo h
    split at h
    · next heq =>
      cases h
      exact heq.symm
    · cases h
  getItemTemplate _ := none

/-- A spell on cooldown is locked with its school, reset, and the history updated. -/
def lockedThenReset : List (Time × Op) :=
  [(0, .addCooldown 133 0 (milliseconds 2000) 5 (milliseconds 2000) false),
    (0, .lockSpellSchool 4 4000 (.player [(133, false)])),
    (0, .resetCooldown 133),
    (0, .update)]

theorem run_categories_live_iff_lockedThenReset :
    (∀ before, before <+: lockedThenReset → ∀ h,
      StateMachine.run (step fireData) (.ok {}) before = .ok h → h.CategoriesLive) ↔
    StateMachine.Admits (step fireData) (AtOp fun now h op => op.Keeps fireData now h) (.ok {})
      lockedThenReset :=
  run_categories_live_iff fireData lockedThenReset ⟨trivial, trivial, trivial, trivial, trivial⟩
    nofun

/-- The lockout leaves the category cooldown at an entry without a category, and when that is
gone the update reads through a dangling pointer. -/
theorem category_of_locked_spell_dangles :
    ¬(∀ before, before <+: lockedThenReset → ∀ h,
      StateMachine.run (step fireData) (.ok {}) before = .ok h → h.CategoriesLive) ∧
    StateMachine.run (step fireData) (.ok {}) lockedThenReset = .error .dangling := by
  have hfault : StateMachine.run (step fireData) (.ok {}) lockedThenReset = .error .dangling := rfl
  refine ⟨fun hall => ?_, hfault⟩
  have hlast : step fireData (StateMachine.run (step fireData) (.ok {}) (lockedThenReset.take 3))
      (0, .update) = .error .dangling := rfl
  cases hrun : StateMachine.run (step fireData) (.ok {}) (lockedThenReset.take 3) with
  | error fault => cases hrun
  | ok h =>
    rw [hrun] at hlast
    exact @Op.run_ne_dangling fireData 0 h .update (hall _ (List.take_prefix 3 _) h hrun) hlast

/-- A run whose steps keep the categories never reads through a dangling pointer. -/
theorem run_step_ne_dangling (data : GameData) (events : List (Time × Op))
    (hok : StateMachine.Admits (step data)
      (AtOp fun now h op => op.Called h ∧ op.Keeps data now h) (.ok {}) events) :
    run (step data) (.ok {}) events ≠ .error .dangling := by
  have hinv := @StateMachine.run_invariant_of_admits _ _ _ _ _
    (fun s => s ≠ .error .dangling ∧ ∀ h, s = .ok h → h.CategoriesLive) ?_ ?_ events hok
  · exact hinv.1
  · refine ⟨nofun, fun h hh => ?_⟩
    cases hh
    exact live_empty _
  · intro s e hinv hok
    cases s with
    | error fault => exact hinv
    | ok h =>
      have hlive : h.CategoriesLive := hinv.2 h rfl
      refine ⟨e.2.run_ne_dangling hlive, fun h' hh' => ?_⟩
      exact (e.2.live_iff hlive hok.1 hh').mpr hok.2

/-- The cooldown ends with the update, and its category with it. -/
theorem run_step_ne_dangling_expired :
    run (step fireData) (.ok {}) [(0, .addCooldown 133 0 1 5 1 false), (2, .update)] ≠
      .error .dangling :=
  run_step_ne_dangling _ _ ⟨⟨trivial, rfl⟩, ⟨trivial, trivial⟩, trivial⟩

end TrinityCore.Spells
