import TrinityCore.Spells.CategoryCooldowns

/-!
# How long a category stays on cooldown

`Update` erases the category cooldowns that have ended, and then the spell entries that have
ended, each with the category of its entry. The second loop does not ask whether that category
is still running, and an entry stored anew under another category keeps the category cooldowns
that refer to it. As long as no update meets either, a category is on cooldown for as long as
the last `AddCooldown` of that category says.
-/

namespace TrinityCore.Spells

open List Option SpellHistory StateMachine

open NodeMap CountedMap

variable {data : GameData} {now : Time} {h h' : SpellHistory}

variable (predicate : UInt32 → CooldownEntry → Bool)

namespace SpellHistory

/-- The pointers of the category cooldowns all lead to stored entries. -/
abbrev PointersStored (h : SpellHistory) : Prop := Stored h.spellCooldowns h.categoryCooldowns

/-! ### What an update leaves -/

/-- A round of the first loop erases its category if that has ended. -/
theorem updateCategory_spec (hstored : h.PointersStored) (categoryId : UInt32) :
    ∃ h', updateCategory now h categoryId = .ok h' ∧ h'.spellCooldowns = h.spellCooldowns ∧
      ∀ c ref, h'.categoryCooldowns.lookup c = some ref ↔
        h.categoryCooldowns.lookup c = some ref ∧
          (c = categoryId → ∀ e, h.spellCooldowns.deref ref = some e → ¬e.categoryEnd < now) := by
  unfold updateCategory
  cases hlookup : h.categoryCooldowns.lookup categoryId with
  | none =>
    refine ⟨h, rfl, rfl, fun c ref => ⟨fun hc => ⟨hc, ?_⟩, And.left⟩⟩
    rintro rfl
    cases hlookup.symm.trans hc
  | some r =>
    obtain ⟨e, he⟩ := hstored.deref hlookup
    simp only [he]
    refine ⟨_, rfl, ?_, fun c ref => ?_⟩
    · split <;> rfl
    · by_cases hended : e.categoryEnd < now
      · rw [if_pos hended]
        simp only [lookup_erase_if]
        by_cases heq : c = categoryId
        · subst heq
          simp only [hlookup, if_true, some.injEq, false_iff, reduceCtorEq]
          rintro ⟨rfl, hall⟩
          exact hall trivial e he hended
        · simp [heq]
      · rw [if_neg hended]
        refine ⟨fun hc => ⟨hc, ?_⟩, And.left⟩
        rintro rfl e' he'
        cases hlookup.symm.trans hc
        cases he.symm.trans he'
        exact hended

/-- The first loop erases the categories it goes through that have ended. -/
theorem updateCategories_spec (hstored : h.PointersStored) (categories : List UInt32) :
    ∃ h', categories.foldlM (updateCategory now) h = .ok h' ∧
      h'.spellCooldowns = h.spellCooldowns ∧
      ∀ c ref, h'.categoryCooldowns.lookup c = some ref ↔
        h.categoryCooldowns.lookup c = some ref ∧
          (c ∈ categories → ∀ e, h.spellCooldowns.deref ref = some e → ¬e.categoryEnd < now) := by
  induction categories generalizing h with
  | nil => exact ⟨h, rfl, rfl, fun c ref => by simp⟩
  | cons categoryId categories ih =>
    obtain ⟨t, ht, htspells, htcats⟩ := @updateCategory_spec now h hstored categoryId
    have htstored : t.PointersStored := by
      intro c ref hc
      rw [htspells]
      exact hstored c ref ((htcats c ref).mp hc).1
    obtain ⟨h', hh', hspells, hcats⟩ := ih htstored
    refine ⟨h', ?_, hspells.trans htspells, fun c ref => ?_⟩
    · rw [foldlM_cons, ht]
      exact hh'
    · rw [hcats, htcats, htspells, mem_cons, and_assoc]
      exact and_congr_right fun _ => or_imp.symm

/-- A round of the second loop erases the entry of its key, with the entry's category, if the
entry meets the predicate. -/
theorem resetIf_spec (h : SpellHistory) (spellId : UInt32) :
    (∀ k node, (resetIf predicate h spellId).spellCooldowns.find k = some node ↔
      h.spellCooldowns.find k = some node ∧ (k = spellId → ¬predicate k node.value = true)) ∧
    ∀ c ref, (resetIf predicate h spellId).categoryCooldowns.lookup c = some ref ↔
      h.categoryCooldowns.lookup c = some ref ∧
        ∀ node, h.spellCooldowns.find spellId = some node → predicate spellId node.value = true →
          node.value.categoryId ≠ c := by
  unfold resetIf
  cases hfind : h.spellCooldowns.find spellId with
  | none =>
    refine ⟨fun k node => ⟨fun hk => ⟨hk, ?_⟩, And.left⟩, fun c ref => by simp⟩
    rintro rfl
    cases hfind.symm.trans hk
  | some n =>
    by_cases hpred : predicate spellId n.value = true
    · simp only [if_pos hpred]
      unfold resetCooldown eraseCooldown
      rw [hfind]
      constructor
      · intro k node
        simp only [find_erase]
        by_cases heq : k = spellId
        · subst heq
          simp only [hfind, if_true, some.injEq, reduceCtorEq, false_iff]
          rintro ⟨rfl, hall⟩
          exact hall trivial hpred
        · simp [heq]
      · intro c ref
        simp only [lookup_erase_if, some.injEq, forall_eq', hpred, true_imp_iff]
        by_cases heq : c = n.value.categoryId
        · simp [heq]
        · simp [heq, Ne.symm heq]
    · simp only [if_neg hpred]
      refine ⟨fun k node => ⟨fun hk => ⟨hk, ?_⟩, And.left⟩, fun c ref => by simp [hpred]⟩
      rintro rfl
      cases hfind.symm.trans hk
      exact hpred

/-- The second loop erases the entries it goes through that meet the predicate, with their
categories. -/
theorem resetAll_spec (h : SpellHistory) (spells : List UInt32) :
    (∀ k node, (spells.foldl (resetIf predicate) h).spellCooldowns.find k = some node ↔
      h.spellCooldowns.find k = some node ∧ (k ∈ spells → ¬predicate k node.value = true)) ∧
    ∀ c ref, (spells.foldl (resetIf predicate) h).categoryCooldowns.lookup c = some ref ↔
      h.categoryCooldowns.lookup c = some ref ∧
        ∀ s ∈ spells, ∀ node, h.spellCooldowns.find s = some node →
          predicate s node.value = true → node.value.categoryId ≠ c := by
  induction spells generalizing h with
  | nil => simp
  | cons spellId spells ih =>
    obtain ⟨hfirst, hfirstCats⟩ := resetIf_spec predicate h spellId
    obtain ⟨hrest, hrestCats⟩ := ih (resetIf predicate h spellId)
    rw [foldl_cons]
    constructor
    · intro k node
      rw [hrest, hfirst, mem_cons, and_assoc]
      exact and_congr_right fun _ => or_imp.symm
    · intro c ref
      rw [hrestCats, hfirstCats, and_assoc, forall_mem_cons]
      refine and_congr_right fun _ => and_congr_right fun hhead => ?_
      constructor
      · intro hall s hs node hnode hpred
        by_cases heq : s = spellId
        · subst heq
          exact hhead node hnode hpred
        · exact hall s hs node ((hfirst s node).mpr ⟨hnode, fun hs => absurd hs heq⟩) hpred
      · intro hall s hs node hnode hpred
        exact hall s hs node ((hfirst s node).mp hnode).1 hpred

/-- `Update` leaves the entries that have not ended, and the categories that have not ended and
are not the category of an entry that has. -/
theorem update_spec (now : Time) (hstored : h.PointersStored) :
    ∃ h', h.update now = .ok h' ∧
      (∀ k node, h'.spellCooldowns.find k = some node ↔
        h.spellCooldowns.find k = some node ∧ ¬node.value.cooldownEnd < now) ∧
      ∀ c ref, h'.categoryCooldowns.lookup c = some ref ↔
        h.categoryCooldowns.lookup c = some ref ∧
          (∀ e, h.spellCooldowns.deref ref = some e → ¬e.categoryEnd < now) ∧
          ∀ s node, h.spellCooldowns.find s = some node → node.value.cooldownEnd < now →
            node.value.categoryId ≠ c := by
  obtain ⟨t, ht, htspells, htcats⟩ := @updateCategories_spec now h hstored h.categoryCooldowns.keys
  obtain ⟨hspells, hcats⟩ := resetAll_spec (fun _ e => e.cooldownEnd < now) t t.spellCooldowns.keys
  refine ⟨t.resetCooldowns fun _ e => e.cooldownEnd < now, ?_, fun k node => ?_, fun c ref => ?_⟩
  · unfold update
    rw [ht]
  · refine (hspells k node).trans ?_
    rw [htspells, decide_eq_true_iff]
    refine and_congr_right fun hk => ?_
    have hmem : k ∈ h.spellCooldowns.keys := mem_keys.mpr (hk ▸ rfl)
    simp [hmem]
  · refine (hcats c ref).trans ?_
    rw [htcats, htspells, and_assoc]
    refine and_congr_right fun hc => ?_
    have hmem : c ∈ h.categoryCooldowns.keys := AList.lookup_isSome.mp (hc ▸ rfl)
    refine and_congr (by simp [hmem]) ?_
    constructor
    · intro hall s node hnode hended
      exact hall s (mem_keys.mpr (hnode ▸ rfl)) node hnode (decide_eq_true hended)
    · intro hall s _ node hnode hended
      exact hall s node hnode (of_decide_eq_true hended)

/-! ### Running categories -/

/-- A category cooldown that has not ended refers to an entry of its category, and as long as it
is running no entry of its category has ended. -/
def KeepsRunning (now : Time) (h : SpellHistory) : Prop :=
  ∀ c ref e, h.categoryCooldowns.lookup c = some ref → h.spellCooldowns.deref ref = some e →
    ¬e.categoryEnd < now →
    e.categoryId = c ∧
      (now < e.categoryEnd → ∀ s node, h.spellCooldowns.find s = some node →
        node.value.categoryId = c → ¬node.value.cooldownEnd < now)

/-- An update before any entry has ended keeps the running categories of a live history. -/
theorem keepsRunning_of_not_ended (hlive : h.CategoriesLive)
    (hends : ∀ s node, h.spellCooldowns.find s = some node → ¬node.value.cooldownEnd < now) :
    h.KeepsRunning now := by
  intro c ref e hc he _
  obtain ⟨s, node, hnode, href, hcategory⟩ := hlive c ref hc
  have hderef : h.spellCooldowns.deref ref = some node.value := href ▸ deref_of_find hnode
  cases hderef.symm.trans he
  exact ⟨hcategory, fun _ s node hs _ => hends s node hs⟩

/-- The category is on cooldown until `ends` by an entry of the spell. -/
def RunsUntil (h : SpellHistory) (spellId c : UInt32) (ends : Time) : Prop :=
  ∃ node, h.spellCooldowns.find spellId = some node ∧ h.categoryCooldowns.lookup c = some node.ref ∧
    node.value.categoryId = c ∧ node.value.categoryEnd = ends

variable {spellId c : UInt32} {ends : Time}

theorem addCooldown_stored (hstored : h.PointersStored) (spellId itemId : UInt32)
    (cooldownEnd : Time) (categoryId : UInt32) (categoryEnd : Time) (onHold : Bool) :
    (h.addCooldown spellId itemId cooldownEnd categoryId categoryEnd onHold).PointersStored := by
  intro c ref hc
  unfold addCooldown at hc ⊢
  dsimp only at hc ⊢
  split at hc
  · rw [lookup_insert_if] at hc
    split at hc
    · cases hc
      exact ⟨spellId, _, find_write_self, (refOf_of_find find_write_self).symm⟩
    · exact hstored.write _ _ c ref hc
  · exact hstored.write _ _ c ref hc

/-- `AddCooldown` starts its category. -/
theorem addCooldown_runsUntil (h : SpellHistory) (spellId itemId : UInt32) (cooldownEnd : Time)
    {c : UInt32} (hc : c ≠ 0) (ends : Time) (onHold : Bool) :
    (h.addCooldown spellId itemId cooldownEnd c ends onHold).RunsUntil spellId c ends := by
  unfold addCooldown
  dsimp only
  rw [if_pos hc]
  refine ⟨_, find_write_self, ?_, rfl, rfl⟩
  rw [lookup_insert_if, if_pos rfl, refOf_of_find find_write_self]

/-- `AddCooldown` of another spell and another category does not touch it. -/
theorem RunsUntil.addCooldown (hruns : h.RunsUntil spellId c ends) {s d : UInt32}
    (hs : spellId ≠ s) (hd : c ≠ d) (itemId : UInt32) (cooldownEnd categoryEnd : Time)
    (onHold : Bool) :
    (h.addCooldown s itemId cooldownEnd d categoryEnd onHold).RunsUntil spellId c ends := by
  obtain ⟨node, hnode, hlookup, hcategory, hends⟩ := hruns
  refine ⟨node, (find_write_of_ne hs).trans hnode, ?_, hcategory, hends⟩
  unfold SpellHistory.addCooldown
  dsimp only
  split
  · rw [lookup_insert_if, if_neg hd, hlookup]
  · exact hlookup

/-- An update leaves pointers to stored entries. -/
theorem update_stored (hstored : h.PointersStored) (hkeeps : h.KeepsRunning now)
    (hstep : h.update now = .ok h') : h'.PointersStored := by
  obtain ⟨t, ht, hspells, hcats⟩ := update_spec now hstored
  cases ht.symm.trans hstep
  intro c ref hc
  obtain ⟨hlookup, hrunning, hother⟩ := (hcats c ref).mp hc
  obtain ⟨s, node, hnode, href⟩ := hstored c ref hlookup
  have hderef : h.spellCooldowns.deref ref = some node.value := href ▸ deref_of_find hnode
  have hcategory := (hkeeps c ref node.value hlookup hderef (hrunning _ hderef)).1
  exact ⟨s, node, (hspells s node).mpr ⟨hnode, fun hended => hother s node hnode hended hcategory⟩,
    href⟩

/-- An update leaves a running category, and the entry it refers to. -/
theorem RunsUntil.update (hruns : h.RunsUntil spellId c ends) (hstored : h.PointersStored)
    (hkeeps : h.KeepsRunning now) (hlt : now < ends) (hstep : h.update now = .ok h') :
    h'.RunsUntil spellId c ends := by
  obtain ⟨t, ht, hspells, hcats⟩ := update_spec now hstored
  cases ht.symm.trans hstep
  obtain ⟨node, hnode, hlookup, hcategory, hends⟩ := hruns
  have hderef : h.spellCooldowns.deref node.ref = some node.value := deref_of_find hnode
  have hlt' : now < node.value.categoryEnd := hends ▸ hlt
  have hrunning : ¬node.value.categoryEnd < now := lt_asymm hlt'
  have hnone := (hkeeps c node.ref node.value hlookup hderef hrunning).2 hlt'
  refine ⟨node, (hspells spellId node).mpr ⟨hnode, hnone spellId node hnode hcategory⟩,
    (hcats c node.ref).mpr ⟨hlookup, fun e he => ?_, fun s other hs hended heq => ?_⟩,
    hcategory, hends⟩
  · cases hderef.symm.trans he
    exact hrunning
  · exact hnone s other hs heq hended

/-- An update leaves no category whose entries have all ended before. -/
theorem update_lookup_eq_none (hstored : h.PointersStored) (hkeeps : h.KeepsRunning now)
    (hended : ∀ s node, h.spellCooldowns.find s = some node → node.value.categoryId = c →
      node.value.categoryEnd < now)
    (hstep : h.update now = .ok h') : h'.categoryCooldowns.lookup c = none := by
  obtain ⟨t, ht, hspells, hcats⟩ := update_spec now hstored
  cases ht.symm.trans hstep
  rw [eq_none_iff_forall_ne_some]
  intro ref hc
  obtain ⟨hlookup, hrunning, -⟩ := (hcats c ref).mp hc
  obtain ⟨s, node, hnode, href⟩ := hstored c ref hlookup
  have hderef : h.spellCooldowns.deref ref = some node.value := href ▸ deref_of_find hnode
  have hnot := hrunning _ hderef
  exact hnot (hended s node hnode (hkeeps c ref node.value hlookup hderef hnot).1)

/-- A category that is not on cooldown stays so until it is set. -/
theorem addCooldown_lookup_of_ne {d : UInt32} (hd : c ≠ d) (spellId itemId : UInt32)
    (cooldownEnd categoryEnd : Time) (onHold : Bool) :
    (h.addCooldown spellId itemId cooldownEnd d categoryEnd onHold).categoryCooldowns.lookup c =
      h.categoryCooldowns.lookup c := by
  unfold addCooldown
  dsimp only
  split
  · rw [lookup_insert_if, if_neg hd]
  · rfl

end SpellHistory

namespace Op

/-- The operation is an `AddCooldown` or an `Update`. -/
def AddsOrUpdates : Op → Prop
  | .addCooldown .. => True
  | .update => True
  | _ => False

/-- The operation is an `AddCooldown` of the category until `ends`. -/
def SetsCategory (c : UInt32) (ends : Time) : Op → Prop
  | .addCooldown _ _ _ categoryId categoryEnd _ => categoryId = c ∧ categoryEnd = ends
  | _ => False

/-- The operation is no `AddCooldown` of the spell or the category. -/
def LeavesAlone (spellId c : UInt32) : Op → Prop
  | .addCooldown s _ _ categoryId _ _ => spellId ≠ s ∧ c ≠ categoryId
  | _ => True

/-- No update ends a running category, and no category cooldown it keeps refers to an entry of
another category. -/
def KeepsRunning (now : Time) (h : SpellHistory) : Op → Prop
  | .update => h.KeepsRunning now
  | _ => True

/-- An `AddCooldown` or `Update` that keeps the running categories succeeds. -/
theorem run_stored {op : Op} (hop : op.AddsOrUpdates) (hkeeps : op.KeepsRunning now h)
    (hstored : h.PointersStored) : ∃ h', op.run data now h = .ok h' ∧ h'.PointersStored := by
  cases op with
  | addCooldown spellId itemId cooldownEnd categoryId categoryEnd onHold =>
    exact ⟨_, rfl, addCooldown_stored hstored _ _ _ _ _ _⟩
  | update =>
    obtain ⟨h', hh', -⟩ := update_spec now hstored
    exact ⟨h', hh', update_stored hstored hkeeps hh'⟩
  | _ => exact hop.elim

end Op

/-! ### Runs -/

/-- Every entry was stored, with its category and its end, by an `AddCooldown` of the run. -/
def EntriesAdded (events : List (Time × Op)) (h : SpellHistory) : Prop :=
  ∀ s node, h.spellCooldowns.find s = some node →
    ∃ e ∈ events, e.2.SetsCategory node.value.categoryId node.value.categoryEnd

/-- The last `AddCooldown` of the category, and of its spell, set it until `ends`. -/
def LastSet (events : List (Time × Op)) (c : UInt32) (ends : Time) : Prop :=
  ∃ before now spellId itemId cooldownEnd onHold after,
    events = before ++ (now, .addCooldown spellId itemId cooldownEnd c ends onHold) :: after ∧
      ∀ e ∈ after, e.2.LeavesAlone spellId c

/-- After an update later than all ends of the category, it was not set again. -/
def EndedSince (events : List (Time × Op)) (c : UInt32) : Prop :=
  ∃ before now after, events = before ++ (now, .update) :: after ∧
    (∀ e ∈ before, ∀ ends, e.2.SetsCategory c ends → ends < now) ∧
    ∀ e ∈ after, ∀ ends, ¬e.2.SetsCategory c ends

/-- A category stays on cooldown for its whole duration, for every spell of the category that
has no entry of its own. -/
def CategoryLaw (data : GameData) (events : List (Time × Op)) (h : SpellHistory) : Prop :=
  ∀ c spellInfo itemId, c ≠ 0 → (getCooldownDurations data spellInfo itemId).2.1 = c →
    h.spellCooldowns.find spellInfo.id = none →
    (∀ t ends, (∀ e ∈ events, e.1 ≤ t) → t < ends → LastSet events c ends →
      h.hasCooldown data spellInfo itemId = true) ∧
    (EndedSince events c → h.hasCooldown data spellInfo itemId = false)

theorem hasCooldown_eq {spellInfo : SpellInfo} {itemId c : UInt32} (hc : c ≠ 0)
    (hcategory : (getCooldownDurations data spellInfo itemId).2.1 = c)
    (hnone : h.spellCooldowns.find spellInfo.id = none) :
    h.hasCooldown data spellInfo itemId = (h.categoryCooldowns.lookup c).isSome := by
  subst hcategory
  unfold hasCooldown
  simp [hnone, hc]

variable {events : List (Time × Op)}

/-- A run of `AddCooldown` and `Update` that keeps the running categories reads through no
dangling pointer, and its entries are those it added. -/
theorem run_entriesAdded (hops : ∀ e ∈ events, e.2.AddsOrUpdates)
    (hkeeps : StateMachine.Admits (step data) (AtOp fun now h op => op.KeepsRunning now h)
      (.ok {}) events) :
    ∃ h, run (step data) (.ok {}) events = .ok h ∧ h.PointersStored ∧
      EntriesAdded events h := by
  induction events using reverseRecOn with
  | nil =>
    exact ⟨{}, rfl, fun c ref hc => by simp at hc, fun s node hs => by simp at hs⟩
  | append_singleton events e ih =>
    rw [forall_mem_append, forall_mem_singleton] at hops
    rw [admits_append] at hkeeps
    obtain ⟨h, hrun, hstored, hadded⟩ := ih hops.1 hkeeps.1
    have hlast := hkeeps.2.1
    rw [hrun] at hlast
    obtain ⟨h', hh', hstored'⟩ := @Op.run_stored data e.1 h e.2 hops.2 hlast hstored
    refine ⟨h', ?_, hstored', fun s node hs => ?_⟩
    · rw [run_concat, hrun]
      exact hh'
    · have hold : h.spellCooldowns.find s = some node →
          ∃ e' ∈ events ++ [e], e'.2.SetsCategory node.value.categoryId node.value.categoryEnd := by
        intro hs
        obtain ⟨e', hmem, hsets⟩ := hadded s node hs
        exact ⟨e', mem_append_left _ hmem, hsets⟩
      obtain ⟨now, op⟩ := e
      cases op with
      | addCooldown spellId itemId cooldownEnd categoryId categoryEnd onHold =>
        cases hh'
        replace hs := find_write.symm.trans hs
        split at hs
        · cases hs
          exact ⟨_, mem_append_right _ mem_cons_self, rfl, rfl⟩
        · exact hold hs
      | update =>
        obtain ⟨t, ht, hspells, -⟩ := update_spec now hstored
        cases ht.symm.trans hh'
        exact hold ((hspells s node).mp hs).1
      | _ => exact hops.2.elim

/-- A category set until a time runs through the steps before it that leave it alone. -/
theorem run_runsUntil {spellId c : UInt32} {ends : Time} (hstored : h.PointersStored)
    (hruns : h.RunsUntil spellId c ends) (hops : ∀ e ∈ events, e.2.AddsOrUpdates)
    (hkeeps : StateMachine.Admits (step data) (AtOp fun now h op => op.KeepsRunning now h)
      (.ok h) events)
    (htimes : ∀ e ∈ events, e.1 < ends) (halone : ∀ e ∈ events, e.2.LeavesAlone spellId c) :
    ∃ h', run (step data) (.ok h) events = .ok h' ∧
      h'.RunsUntil spellId c ends := by
  induction events generalizing h with
  | nil => exact ⟨h, rfl, hruns⟩
  | cons e events ih =>
    rw [forall_mem_cons] at hops htimes halone
    obtain ⟨t, ht, htstored⟩ := @Op.run_stored data e.1 h e.2 hops.1 hkeeps.1 hstored
    have hstep : step data (.ok h) e = .ok t := ht
    rw [run_cons, hstep]
    have hrest := hkeeps.2
    rw [hstep] at hrest
    refine ih htstored ?_ hops.2 hrest htimes.2 halone.2
    obtain ⟨now, op⟩ := e
    cases op with
    | addCooldown s itemId cooldownEnd categoryId categoryEnd onHold =>
      cases ht
      exact hruns.addCooldown halone.1.1 halone.1.2 ..
    | update => exact hruns.update hstored hkeeps.1 htimes.1 ht
    | _ => exact hops.1.elim

/-- A category that is not on cooldown stays so in a run that does not set it. -/
theorem run_lookup_eq_none {c : UInt32} (hstored : h.PointersStored)
    (hnone : h.categoryCooldowns.lookup c = none) (hops : ∀ e ∈ events, e.2.AddsOrUpdates)
    (hkeeps : StateMachine.Admits (step data) (AtOp fun now h op => op.KeepsRunning now h)
      (.ok h) events)
    (hunset : ∀ e ∈ events, ∀ ends, ¬e.2.SetsCategory c ends) :
    ∃ h', run (step data) (.ok h) events = .ok h' ∧
      h'.categoryCooldowns.lookup c = none := by
  induction events generalizing h with
  | nil => exact ⟨h, rfl, hnone⟩
  | cons e events ih =>
    rw [forall_mem_cons] at hops hunset
    obtain ⟨t, ht, htstored⟩ := @Op.run_stored data e.1 h e.2 hops.1 hkeeps.1 hstored
    have hstep : step data (.ok h) e = .ok t := ht
    rw [run_cons, hstep]
    have hrest := hkeeps.2
    rw [hstep] at hrest
    refine ih htstored ?_ hops.2 hrest hunset.2
    obtain ⟨now, op⟩ := e
    cases op with
    | addCooldown s itemId cooldownEnd categoryId categoryEnd onHold =>
      cases ht
      have hne : c ≠ categoryId := fun heq => hunset.1 categoryEnd ⟨heq.symm, rfl⟩
      rw [addCooldown_lookup_of_ne hne, hnone]
    | update =>
      obtain ⟨h', hh', -, hcats⟩ := update_spec now hstored
      cases hh'.symm.trans ht
      rw [eq_none_iff_forall_ne_some]
      intro ref href
      cases hnone.symm.trans ((hcats c ref).mp href).1
    | _ => exact hops.1.elim

/-- In a run of `AddCooldown` and `Update` whose updates keep the running categories, a category
is on cooldown until the end it was last given, and not after an update past all its ends. -/
theorem run_categoryLaw (data : GameData) (events : List (Time × Op))
    (hops : ∀ e ∈ events, e.2.AddsOrUpdates)
    (hkeeps : StateMachine.Admits (step data) (AtOp fun now h op => op.KeepsRunning now h)
      (.ok {}) events) :
    ∀ before, before <+: events → ∃ h,
      StateMachine.run (step data) (.ok {}) before = .ok h ∧ CategoryLaw data before h := by
  rintro past ⟨rest, rfl⟩
  rw [StateMachine.admits_append] at hkeeps
  replace hkeeps := hkeeps.1
  replace hops : ∀ e ∈ past, e.2.AddsOrUpdates := fun e he => hops e (mem_append_left _ he)
  obtain ⟨h, hrun, -⟩ := run_entriesAdded hops hkeeps
  refine ⟨h, hrun, fun c spellInfo itemId hc hcategory hnone => ?_⟩
  rw [hasCooldown_eq hc hcategory hnone]
  constructor
  · rintro t ends htimes hlt ⟨before, now, spellId, itemId, cooldownEnd, onHold, after, rfl, halone⟩
    rw [StateMachine.admits_append] at hkeeps
    rw [forall_mem_append, forall_mem_cons] at hops htimes
    obtain ⟨s, hs, hstored, -⟩ := run_entriesAdded hops.1 hkeeps.1
    rw [StateMachine.run_append, hs, StateMachine.run_cons] at hrun
    rw [hs] at hkeeps
    have hset : (s.addCooldown spellId itemId cooldownEnd c ends onHold).PointersStored :=
      SpellHistory.addCooldown_stored hstored _ _ _ _ _ _
    obtain ⟨h', hh', node, -, hlookup, -⟩ := run_runsUntil hset
      (SpellHistory.addCooldown_runsUntil s spellId itemId cooldownEnd hc ends onHold)
      hops.2.2 hkeeps.2.2 (fun e he => lt_of_le_of_lt (htimes.2.2 e he) hlt) halone
    cases hh'.symm.trans hrun
    rw [hlookup]
    rfl
  · rintro ⟨before, now, after, rfl, hends, hunset⟩
    rw [StateMachine.admits_append] at hkeeps
    rw [forall_mem_append, forall_mem_cons] at hops
    obtain ⟨s, hs, hstored, hadded⟩ := run_entriesAdded hops.1 hkeeps.1
    rw [StateMachine.run_append, hs, StateMachine.run_cons] at hrun
    rw [hs] at hkeeps
    have hupdate : s.KeepsRunning now := hkeeps.2.1
    obtain ⟨t, ht, -⟩ := SpellHistory.update_spec now hstored
    have hstep : step data (.ok s) (now, .update) = .ok t := ht
    have hafter := hkeeps.2.2
    rw [hstep] at hrun hafter
    have hgone : t.categoryCooldowns.lookup c = none := by
      refine SpellHistory.update_lookup_eq_none hstored hupdate (fun k node hk hcat => ?_) ht
      obtain ⟨e, he, hsets⟩ := hadded k node hk
      exact hends e he _ (hcat ▸ hsets)
    obtain ⟨h', hh', hlookup⟩ := run_lookup_eq_none
      (SpellHistory.update_stored hstored hupdate ht) hgone hops.2.2 hafter hunset
    cases hh'.symm.trans hrun
    rw [hlookup]
    rfl

/-- A spell put on cooldown, its category for longer, and an update at a time. -/
def updatedAt (now : Time) : List (Time × Op) :=
  [(0, .addCooldown 133 0 (milliseconds 2000) 5 (milliseconds 8000) false), (now, .update)]

theorem run_categoryLaw_updatedAt :
    ∃ h, StateMachine.run (step fireData) (.ok {}) (updatedAt (milliseconds 1000)) = .ok h ∧
      CategoryLaw fireData (updatedAt (milliseconds 1000)) h := by
  refine run_categoryLaw fireData (updatedAt (milliseconds 1000)) ?_ ⟨trivial, ?_, trivial⟩ _
    prefix_rfl
  · simp [updatedAt, Op.AddsOrUpdates]
  · have hlive : ({} : SpellHistory).CategoriesLive := live_empty _
    refine SpellHistory.keepsRunning_of_not_ended
      ((SpellHistory.addCooldown_live_iff hlive ..).mpr rfl) fun s node hs => ?_
    replace hs := find_write.symm.trans hs
    split at hs
    · cases hs
      exact Int.not_lt.mpr (by decide)
    · simp at hs

/-- An update between the end of the spell and the end of the category ends both. -/
theorem category_erased_with_spell :
    ¬∀ (data : GameData) (events : List (Time × Op)), (∀ e ∈ events, e.2.AddsOrUpdates) →
      (events.Pairwise fun a b => a.1 ≤ b.1) →
      ∀ before, before <+: events → ∃ h,
        StateMachine.run (step data) (.ok {}) before = .ok h ∧ CategoryLaw data before h := by
  intro hall
  obtain ⟨h, hrun, hlaw⟩ := hall fireData (updatedAt (milliseconds 3000))
    (by simp [updatedAt, Op.AddsOrUpdates]) (by simp [updatedAt, milliseconds]) _ prefix_rfl
  have hset : LastSet (updatedAt (milliseconds 3000)) 5 (milliseconds 8000) :=
    ⟨[], 0, 133, 0, milliseconds 2000, false, [_], rfl, fun e he => by
      rw [mem_singleton.mp he]
      trivial⟩
  cases hrun
  have hcooldown := (hlaw 5 { id := 133, category := 5 } 0 (by decide) rfl rfl).1
    (milliseconds 3000) (milliseconds 8000) (by simp [updatedAt, milliseconds]) (by decide) hset
  cases hcooldown

end TrinityCore.Spells
