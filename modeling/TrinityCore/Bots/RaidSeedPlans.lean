import TrinityCore.Bots.RaidLockoutRoundTrip
import TrinityCore.Bots.RaidPredecessors

/-!
# Exact seed plans

What `BuildSeedPlan` promises of a plan it returns: the states, indices and save extras are
exactly those of the listed bosses, the list is closed under predecessors, and its order does
not matter.
-/

namespace TrinityCore.Bots.RaidLockout

open List SeedPlan StateMachine

/-! ### A plan as a fold -/

/-- The plan before any boss is done. -/
def initialPlan (d : RaidDefinition) (difficulty : UInt8) (count : UInt32) : SeedPlan :=
  { difficulty := difficulty
    encounterCount := count
    bossStates := List.replicate count.toNat d.initialBossState }

/-- The plan with the values of the save extras and the save data. -/
def SeedPlan.finish (d : RaidDefinition) (plan : SeedPlan) (extras : ExtraState) : SeedPlan :=
  let value (extra : SaveExtraDefinition) := extras.extraValues.getD extra.name 0
  { plan with
    extraValues := d.saveExtras.map fun extra => (extra.name, value extra)
    saveData := buildSaveData d.scriptHeader plan.bossStates
      (d.saveExtras.map fun extra => (extra.encoding, value extra)) }

/-- What a successful call has computed. -/
structure Built (d : RaidDefinition) (difficulty : UInt8) (bossKeys : List String)
    (plan : SeedPlan) (done : Std.ExtTreeSet String) (count : UInt32) (seeded : SeedPlan)
    (extras : ExtraState) : Prop where
  valid : validateDefinition d = none
  supported : d.encounterCount[difficulty]? = some count
  collected : collectDone d difficulty bossKeys ∅ = .ok done
  loop : (orderedBosses d done).foldlM (seedBoss done)
    (initialPlan d difficulty count, { extraValues := defaultExtras d.saveExtras }) =
      .ok (seeded, extras)
  finish : plan = seeded.finish d extras

variable {d : RaidDefinition} {difficulty : UInt8} {bossKeys keys : List String}
  {done : Std.ExtTreeSet String} {boss : BossDefinition}

theorem buildSeedPlan_eq_ok_iff {plan : SeedPlan} :
    buildSeedPlan d difficulty bossKeys = .ok plan ↔
      ∃ done count seeded extras, Built d difficulty bossKeys plan done count seeded extras := by
  constructor
  · intro h
    unfold buildSeedPlan at h
    split at h
    · cases h
    next hvalid =>
    split at h
    · cases h
    next count hcount =>
    split at h
    · cases h
    next done hdone =>
    simp only at h
    split at h
    · cases h
    next seeded extras hseeded =>
    cases h
    exact ⟨done, count, seeded, extras, hvalid, hcount, hdone, hseeded, rfl⟩
  · rintro ⟨done, count, seeded, extras, h⟩
    have hloop := h.loop
    rw [initialPlan] at hloop
    simp only [buildSeedPlan, h.valid, h.supported, h.collected, hloop, h.finish]
    rfl

/-- What `seedBoss` has checked of a boss it adds. -/
structure Seedable (done : Std.ExtTreeSet String) (boss : BossDefinition) : Prop where
  predecessors : ∀ predecessor ∈ boss.predecessors, predecessor ∈ done
  bit : 0 ≤ boss.dungeonEncounterBit
  deadSpawns : boss.deadDbSpawnEntriesKnown = true

theorem seedBoss_eq_ok {s s' : SeedPlan × ExtraState} (h : seedBoss done s boss = .ok s') :
    Seedable done boss ∧ s'.1 = s.1.addDone boss ∧
      boss.extraSaveValues.toList.foldlM (seedExtra boss.key) s.2 = .ok s'.2 := by
  unfold seedBoss at h
  split at h
  · cases h
  next hclosed =>
  split at h
  · cases h
  next hbit =>
  split at h
  · cases h
  next hspawns =>
  split at h
  · cases h
  next extras hextras =>
  cases h
  refine ⟨⟨?_, Int32.not_lt.mp hbit, by simpa using hspawns⟩, rfl, hextras⟩
  intro predecessor hmem
  have hcontained := find?_eq_none.mp hclosed predecessor hmem
  simpa using hcontained

/-- The plan adds the bosses one after the other. -/
theorem seeded_eq_foldl {bosses : List BossDefinition} {s s' : SeedPlan × ExtraState}
    (h : bosses.foldlM (seedBoss done) s = .ok s') :
    s'.1 = bosses.foldl addDone s.1 ∧ ∀ boss ∈ bosses, Seedable done boss := by
  let inv (rounds : List BossDefinition) (t : SeedPlan × ExtraState) : Prop :=
    t.1 = rounds.foldl addDone s.1 ∧ ∀ boss ∈ rounds, Seedable done boss
  have hstep (rounds : List BossDefinition) (t : SeedPlan × ExtraState) (boss : BossDefinition)
      (t' : SeedPlan × ExtraState) (ht : inv rounds t) (hs : seedBoss done t boss = .ok t') :
      inv (rounds ++ [boss]) t' := by
    obtain ⟨hboss, hplan, -⟩ := seedBoss_eq_ok hs
    refine ⟨?_, ?_⟩
    · rw [hplan, ht.1, foldl_append, foldl_cons, foldl_nil]
    · intro other hother
      rcases mem_append.mp hother with hold | hnew
      · exact ht.2 other hold
      · rwa [mem_singleton.mp hnew]
  have hinit : inv [] s := ⟨rfl, fun _ h => nomatch h⟩
  exact foldlM_invariant hstep hinit h

section

variable (bosses : List BossDefinition) (plan : SeedPlan)

theorem bossesDone_foldl_addDone :
    (bosses.foldl addDone plan).bossesDone =
      plan.bossesDone ++ bosses.map BossDefinition.key := by
  induction bosses generalizing plan with
  | nil => simp
  | cons boss rest ih => simp [ih, addDone]

theorem bossIndicesDone_foldl_addDone :
    (bosses.foldl addDone plan).bossIndicesDone =
      plan.bossIndicesDone ++ bosses.map BossDefinition.bossIndex := by
  induction bosses generalizing plan with
  | nil => simp
  | cons boss rest ih => simp [ih, addDone]

theorem encounterCount_foldl_addDone :
    (bosses.foldl addDone plan).encounterCount = plan.encounterCount := by
  induction bosses generalizing plan with
  | nil => rfl
  | cons boss rest ih => exact ih _

theorem length_bossStates_foldl_addDone :
    (bosses.foldl addDone plan).bossStates.length = plan.bossStates.length := by
  induction bosses generalizing plan with
  | nil => rfl
  | cons boss rest ih => exact (ih _).trans (length_set ..)

theorem getElem?_bossStates_foldl_addDone (i : Nat) :
    (bosses.foldl addDone plan).bossStates[i]? =
      plan.bossStates[i]?.map fun state =>
        if ∃ boss ∈ bosses, boss.bossIndex.toNat = i then stateDone else state := by
  induction bosses generalizing plan with
  | nil => simp
  | cons boss rest ih =>
    rw [foldl_cons, ih, addDone, getElem?_set]
    by_cases hboss : boss.bossIndex.toNat = i
    · rw [if_pos hboss, hboss]
      by_cases hlt : i < plan.bossStates.length
      · simp [hlt, hboss]
      · simp [hlt]
    · simp [hboss]

end

/-! ### The boss indices of a difficulty -/

/-- The bosses on a difficulty have different indices, all in range. -/
structure Indexed (d : RaidDefinition) (difficulty : UInt8) (count : UInt32) : Prop where
  lt : ∀ boss ∈ d.bosses, bossAvailableOn boss difficulty = true → boss.bossIndex < count
  inj : ∀ a ∈ d.bosses, ∀ b ∈ d.bosses, bossAvailableOn a difficulty = true →
    bossAvailableOn b difficulty = true → a.bossIndex = b.bossIndex → a = b

theorem mem_difficulties (h : validateDefinition d = none) {count : UInt32}
    (hcount : d.encounterCount[difficulty]? = some count) : difficulty ∈ d.difficulties := by
  simp only [validateDefinition, Option.or_eq_none_iff] at h
  have hdifficulties := h.2.1
  rw [checkDifficulties] at hdifficulties
  split at hdifficulties
  · cases hdifficulties
  rw [Option.or_eq_none_iff] at hdifficulties
  have hcounts := hdifficulties.2
  split at hcounts
  · cases hcounts
  rw [findSome?_eq_none_iff] at hcounts
  have hentry := hcounts (difficulty, count)
    (Std.ExtTreeMap.mem_toList_iff_getElem?_eq_some.mpr hcount)
  by_contra hnot
  simp [hnot] at hentry

theorem indexed_of_validateDefinition (h : validateDefinition d = none) {count : UInt32}
    (hcount : d.encounterCount[difficulty]? = some count) : Indexed d difficulty count := by
  have hmem := mem_difficulties h hcount
  simp only [validateDefinition, Option.or_eq_none_iff, findSome?_eq_none_iff] at h
  have hindices := h.2.2.2.2.1 difficulty hmem
  simp only [checkBossIndices, Option.or_eq_none_iff] at hindices
  have hdistinct := hindices.1
  rw [Std.ExtTreeMap.getD_eq_getD_getElem?, hcount, Option.getD_some] at hdistinct
  have havailable {boss : BossDefinition} (hboss : boss ∈ d.bosses)
      (hon : bossAvailableOn boss difficulty = true) :
      boss ∈ d.bosses.filter fun boss => bossAvailableOn boss difficulty :=
    mem_filter.mpr ⟨hboss, hon⟩
  have hrepeated (boss : BossDefinition) : checkBossIndex count true boss ≠ none := by
    rw [checkBossIndex]
    split <;> simp
  constructor
  · intro boss hboss hon
    obtain ⟨repeated, hcheck⟩ := check_of_checkDistinct hdistinct (havailable hboss hon)
    rw [checkBossIndex] at hcheck
    split at hcheck
    · cases hcheck
    · next hlt => exact UInt32.not_le.mp hlt
  · intro a ha b hb hona honb heq
    have hnodup := (nodup_of_checkDistinct hrepeated hdistinct).1
    exact inj_on_of_nodup_map hnodup (havailable ha hona) (havailable hb honb) heq

/-- The keys of all bosses differ. -/
theorem nodup_keys (h : validateDefinition d = none) : (d.bosses.map BossDefinition.key).Nodup := by
  simp only [validateDefinition, Option.or_eq_none_iff] at h
  apply (nodup_of_checkDistinct _ h.2.2.2.1).1
  intro boss
  simp [checkBossKey]

/-! ### The done bosses -/

/-- The bosses of a list of keys. -/
def listedBosses (d : RaidDefinition) (bossKeys : List String) : List BossDefinition :=
  bossKeys.filterMap (findBoss d)

theorem key_of_findBoss {key : String} (h : findBoss d key = some boss) :
    boss ∈ d.bosses ∧ boss.key = key :=
  ⟨mem_of_find?_eq_some h, by simpa using find?_some h⟩

theorem mem_listedBosses :
    boss ∈ listedBosses d bossKeys ↔ boss.key ∈ bossKeys ∧ findBoss d boss.key = some boss := by
  rw [listedBosses, mem_filterMap]
  constructor
  · rintro ⟨key, hkey, hboss⟩
    obtain ⟨-, rfl⟩ := key_of_findBoss hboss
    exact ⟨hkey, hboss⟩
  · rintro ⟨hkey, hboss⟩
    exact ⟨boss.key, hkey, hboss⟩

/-- What `collectDone` has checked of the keys. -/
structure Collected (d : RaidDefinition) (difficulty : UInt8) (keys : List String)
    (done : Std.ExtTreeSet String) : Prop where
  known : ∀ key ∈ keys, ∃ boss, findBoss d key = some boss ∧ bossAvailableOn boss difficulty = true
  nodup : keys.Nodup
  fresh : ∀ key ∈ keys, key ∉ done

theorem mem_insert_iff {key k : String} : k ∈ done.insert key ↔ key = k ∨ k ∈ done := by
  rw [Std.ExtTreeSet.mem_insert, Std.LawfulEqOrd.compare_eq_iff_eq]

theorem collectDone_ok_iff :
    (∃ done', collectDone d difficulty keys done = .ok done') ↔
      Collected d difficulty keys done := by
  induction keys generalizing done with
  | nil => simpa [collectDone] using ⟨by simp, nodup_nil, by simp⟩
  | cons key rest ih =>
    constructor
    · rintro ⟨done', h⟩
      unfold collectDone at h
      split at h
      · cases h
      next boss hboss =>
      split at h
      · cases h
      next hon =>
      split at h
      · cases h
      next hfresh =>
      have hkey : key ∉ done := hfresh
      obtain ⟨hknown, hnodup, hrest⟩ := ih.mp ⟨done', h⟩
      have hrest' (k : String) (hk : k ∈ rest) : key ≠ k ∧ k ∉ done :=
        not_or.mp fun hmem => hrest k hk (mem_insert_iff.mpr hmem)
      refine ⟨?_, nodup_cons.mpr ⟨fun hmem => (hrest' key hmem).1 rfl, hnodup⟩, ?_⟩
      · intro k hk
        rcases mem_cons.mp hk with rfl | hk
        · exact ⟨boss, hboss, by simpa using hon⟩
        · exact hknown k hk
      · intro k hk
        rcases mem_cons.mp hk with rfl | hk
        · exact hkey
        · exact (hrest' k hk).2
    · rintro ⟨hknown, hnodup, hfresh⟩
      obtain ⟨boss, hboss, hon⟩ := hknown key mem_cons_self
      obtain ⟨hkey, hnodup⟩ := nodup_cons.mp hnodup
      have hnew : ¬ done.contains key = true := hfresh key mem_cons_self
      have hrest : Collected d difficulty rest (done.insert key) := by
        refine ⟨fun k hk => hknown k (mem_cons_of_mem _ hk), hnodup, ?_⟩
        intro k hk hmem
        rcases mem_insert_iff.mp hmem with rfl | hold
        · exact hkey hk
        · exact hfresh k (mem_cons_of_mem _ hk) hold
      simp only [collectDone, hboss, hon, hnew]
      exact ih.mpr hrest

/-- The order of the keys does not matter. -/
theorem collectDone_perm {keys' : List String} (hperm : keys.Perm keys')
    (h : collectDone d difficulty keys ∅ = .ok done) :
    collectDone d difficulty keys' ∅ = .ok done := by
  obtain ⟨hknown, hnodup, hfresh⟩ := collectDone_ok_iff.mp ⟨done, h⟩
  obtain ⟨done', h'⟩ := collectDone_ok_iff.mpr
    ⟨fun key hkey => hknown key (hperm.mem_iff.mpr hkey), hperm.nodup_iff.mp hnodup,
      fun key hkey => hfresh key (hperm.mem_iff.mpr hkey)⟩
  have hsame : done' = done := by
    apply Std.ExtTreeSet.ext_mem
    intro key
    rw [collectDone_spec h', collectDone_spec h, hperm.mem_iff]
  rw [h', hsame]

/-- The ordered bosses are those listed. -/
theorem perm_orderedBosses (h : collectDone d difficulty bossKeys ∅ = .ok done) :
    (orderedBosses d done).Perm (listedBosses d bossKeys) := by
  have hnodup := (collectDone_ok_iff.mp ⟨done, h⟩).nodup
  have hkeys : done.toList.Perm bossKeys := by
    have hdistinct : done.toList.Nodup :=
      done.distinct_toList.imp fun hne heq => hne (Std.LawfulEqOrd.compare_eq_iff_eq.mpr heq)
    apply (perm_ext_iff_of_nodup hdistinct hnodup).mpr
    intro key
    rw [Std.ExtTreeSet.mem_toList, collectDone_spec h]
    simp
  exact (perm_insertionSort _ _).trans (hkeys.filterMap _)

/-- The bosses of different keys differ. -/
theorem nodup_listedBosses (h : bossKeys.Nodup) : (listedBosses d bossKeys).Nodup := by
  apply h.filterMap
  intro a b boss ha hb
  rw [← (key_of_findBoss ha).2, ← (key_of_findBoss hb).2]

/-- The bosses of known keys have those keys. -/
theorem map_key_listedBosses (h : ∀ key ∈ bossKeys, ∃ boss, findBoss d key = some boss) :
    (listedBosses d bossKeys).map BossDefinition.key = bossKeys := by
  induction bossKeys with
  | nil => rfl
  | cons key rest ih =>
    obtain ⟨boss, hboss⟩ := h key mem_cons_self
    rw [listedBosses, filterMap_cons_some hboss, map_cons, (key_of_findBoss hboss).2]
    exact congrArg _ (ih fun k hk => h k (mem_cons_of_mem _ hk))

/-- The indices of the ordered bosses increase. -/
theorem pairwise_orderedBosses {count : UInt32} (hd : Indexed d difficulty count)
    (h : collectDone d difficulty bossKeys ∅ = .ok done) :
    (orderedBosses d done).Pairwise fun a b => a.bossIndex < b.bossIndex := by
  have hcollected := collectDone_ok_iff.mp ⟨done, h⟩
  have hperm := perm_orderedBosses h
  have hon (boss : BossDefinition) (hboss : boss ∈ orderedBosses d done) :
      boss ∈ d.bosses ∧ bossAvailableOn boss difficulty = true := by
    obtain ⟨hkey, hfind⟩ := mem_listedBosses.mp (hperm.mem_iff.mp hboss)
    obtain ⟨boss', hfind', hon⟩ := hcollected.known boss.key hkey
    cases hfind.symm.trans hfind'
    exact ⟨(key_of_findBoss hfind).1, hon⟩
  have hsorted : (orderedBosses d done).Pairwise fun a b => a.bossIndex ≤ b.bossIndex := by
    have htotal : Std.Total fun a b : BossDefinition => a.bossIndex ≤ b.bossIndex :=
      ⟨fun a b => UInt32.le_total a.bossIndex b.bossIndex⟩
    have htrans : IsTrans BossDefinition fun a b => a.bossIndex ≤ b.bossIndex :=
      ⟨fun _ _ _ => UInt32.le_trans⟩
    exact pairwise_insertionSort _ _
  have hnodup : (orderedBosses d done).Nodup :=
    hperm.nodup_iff.mpr (nodup_listedBosses hcollected.nodup)
  apply (hsorted.and hnodup).imp_of_mem
  rintro a b ha hb ⟨hle, hne⟩
  rcases UInt32.lt_or_eq_of_le hle with hlt | heq
  · exact hlt
  · exact absurd (hd.inj a (hon a ha).1 b (hon b hb).1 (hon a ha).2 (hon b hb).2 heq) hne

/-- A list whose bosses have their direct predecessors in it has all that come before. -/
theorem mem_of_transGen
    (hclosed : ∀ boss ∈ listedBosses d bossKeys, ∀ predecessor ∈ boss.predecessors,
      predecessor ∈ bossKeys)
    {key k : String} (hkey : key ∈ bossKeys) (h : Relation.TransGen (Precedes d) key k) :
    k ∈ bossKeys := by
  have hstep {a b : String} (ha : a ∈ bossKeys) (hedge : Precedes d a b) : b ∈ bossKeys := by
    rw [Precedes, predecessorsOf] at hedge
    cases hboss : findBoss d a with
    | none =>
      rw [hboss] at hedge
      cases hedge
    | some boss =>
      rw [hboss] at hedge
      exact hclosed boss (mem_filterMap.mpr ⟨a, ha, hboss⟩) b hedge
  induction h with
  | single hedge => exact hstep hkey hedge
  | tail _ hedge ih => exact hstep ih hedge

/-! ### Exact plans -/

/-- The plan is exactly the lockout in which the listed bosses are done. -/
structure PlansExactly (d : RaidDefinition) (difficulty : UInt8) (bossKeys : List String)
    (plan : SeedPlan) : Prop where
  valid : validateDefinition d = none
  known : ∀ key ∈ bossKeys, ∃ boss, findBoss d key = some boss
  nodup : bossKeys.Nodup
  predecessors : ∀ key ∈ bossKeys, ∀ k ∈ predecessorClosure d key, k ∈ bossKeys
  encounterCount : d.encounterCount[difficulty]? = some plan.encounterCount
  length : plan.bossStates.length = plan.encounterCount.toNat
  index_lt : ∀ boss ∈ listedBosses d bossKeys, boss.bossIndex < plan.encounterCount
  state : ∀ i < plan.encounterCount.toNat, plan.bossStates[i]? =
    some (if ∃ boss ∈ listedBosses d bossKeys, boss.bossIndex.toNat = i then stateDone
      else d.initialBossState)
  initial_ne : d.initialBossState ≠ stateDone
  increasing : plan.bossIndicesDone.Pairwise (· < ·)
  indices : plan.bossIndicesDone.Perm ((listedBosses d bossKeys).map BossDefinition.bossIndex)
  extraNames : plan.extraValues.map Prod.fst = d.saveExtras.map SaveExtraDefinition.name
  extraSet : ∀ entry ∈ plan.extraValues, ∀ boss ∈ listedBosses d bossKeys,
    ∀ value, boss.extraSaveValues[entry.1]? = some value → entry.2 = value
  extraDefault : ∀ extra ∈ d.saveExtras, ∀ value, (extra.name, value) ∈ plan.extraValues →
    (∀ boss ∈ listedBosses d bossKeys, boss.extraSaveValues[extra.name]? = none) →
      value = extra.default

section

variable {d : RaidDefinition} {difficulty : UInt8} {bossKeys : List String} {plan : SeedPlan}
  {done : Std.ExtTreeSet String} {count : UInt32} {seeded : SeedPlan} {extras : ExtraState}

section

variable (h : Built d difficulty bossKeys plan done count seeded extras)
include h

theorem Built.seeded_eq :
    seeded = (orderedBosses d done).foldl addDone (initialPlan d difficulty count) ∧
      ∀ boss ∈ listedBosses d bossKeys, Seedable done boss := by
  obtain ⟨hfold, hseedable⟩ := seeded_eq_foldl h.loop
  exact ⟨hfold, fun boss hboss =>
    hseedable boss ((perm_orderedBosses h.collected).mem_iff.mpr hboss)⟩

theorem Built.mem_done (key : String) : key ∈ done ↔ key ∈ bossKeys := by
  rw [collectDone_spec h.collected]
  simp

theorem Built.bossesDone_perm : plan.bossesDone.Perm bossKeys := by
  have hdone : plan.bossesDone = (orderedBosses d done).map BossDefinition.key := by
    rw [h.finish, SeedPlan.finish, h.seeded_eq.1]
    exact bossesDone_foldl_addDone _ _
  have hkeys : (listedBosses d bossKeys).map BossDefinition.key = bossKeys := by
    apply map_key_listedBosses
    intro key hkey
    obtain ⟨boss, hboss, -⟩ := (collectDone_ok_iff.mp ⟨done, h.collected⟩).known key hkey
    exact ⟨boss, hboss⟩
  rw [hdone]
  exact ((perm_orderedBosses h.collected).map _).trans (List.Perm.of_eq hkeys)

theorem Built.available (hboss : boss ∈ listedBosses d bossKeys) :
    boss ∈ d.bosses ∧ bossAvailableOn boss difficulty = true := by
  obtain ⟨hkey, hfind⟩ := mem_listedBosses.mp hboss
  obtain ⟨boss', hfind', hon⟩ := (collectDone_ok_iff.mp ⟨done, h.collected⟩).known boss.key hkey
  cases hfind.symm.trans hfind'
  exact ⟨(key_of_findBoss hfind).1, hon⟩

/-- The extras after the loop hold every value a listed boss leaves. -/
theorem Built.settled :
    Settled (defaultExtras d.saveExtras)
      ((orderedBosses d done).flatMap fun boss => boss.extraSaveValues.toList) extras := by
  let inv (rounds : List BossDefinition) (s : SeedPlan × ExtraState) : Prop :=
    Settled (defaultExtras d.saveExtras)
      (rounds.flatMap fun boss => boss.extraSaveValues.toList) s.2
  have hstep (rounds : List BossDefinition) (s : SeedPlan × ExtraState) (boss : BossDefinition)
      (s' : SeedPlan × ExtraState) (hs : inv rounds s) (hseed : seedBoss done s boss = .ok s') :
      inv (rounds ++ [boss]) s' := by
    show Settled _ ((rounds ++ [boss]).flatMap _) s'.2
    rw [flatMap_append, flatMap_singleton]
    exact foldlM_invariant (fun _ _ _ _ h hs => settled_seedExtra h hs) hs
      (seedBoss_eq_ok hseed).2.2
  have hinit : inv []
      (initialPlan d difficulty count, { extraValues := defaultExtras d.saveExtras }) :=
    ⟨by simp, by simp, fun _ _ => rfl⟩
  have hrun := foldlM_invariant hstep hinit h.loop
  exact hrun

theorem Built.plansExactly : PlansExactly d difficulty bossKeys plan := by
  obtain ⟨hseeded, hseedable⟩ := h.seeded_eq
  have hcollected := collectDone_ok_iff.mp ⟨done, h.collected⟩
  have hindexed := indexed_of_validateDefinition h.valid h.supported
  have hwell := wellFormed_of_validateDefinition h.valid
  have hperm := perm_orderedBosses h.collected
  have hmem (boss : BossDefinition) :
      boss ∈ orderedBosses d done ↔ boss ∈ listedBosses d bossKeys := hperm.mem_iff
  have hcount : plan.encounterCount = count := by
    rw [h.finish, SeedPlan.finish, hseeded]
    exact encounterCount_foldl_addDone _ _
  have hindices : plan.bossIndicesDone = (orderedBosses d done).map BossDefinition.bossIndex := by
    rw [h.finish, SeedPlan.finish, hseeded]
    exact bossIndicesDone_foldl_addDone _ _
  have hstates (i : Nat) : plan.bossStates[i]? =
      (replicate count.toNat d.initialBossState)[i]?.map fun state =>
        if ∃ boss ∈ orderedBosses d done, boss.bossIndex.toNat = i then stateDone else state := by
    rw [h.finish, SeedPlan.finish, hseeded]
    exact getElem?_bossStates_foldl_addDone _ _ i
  have hextras : plan.extraValues = d.saveExtras.map fun extra =>
      (extra.name, extras.extraValues.getD extra.name 0) := by
    rw [h.finish, SeedPlan.finish]
  have hvalue (boss : BossDefinition) (hboss : boss ∈ listedBosses d bossKeys) (name : String)
      (value : UInt32) (hset : boss.extraSaveValues[name]? = some value) :
      extras.extraValues.getD name 0 = value := by
    have hentry : (name, value) ∈
        (orderedBosses d done).flatMap fun boss => boss.extraSaveValues.toList :=
      mem_flatMap.mpr ⟨boss, (hmem boss).mpr hboss,
        Std.ExtTreeMap.mem_toList_iff_getElem?_eq_some.mpr hset⟩
    rw [Std.ExtTreeMap.getD_eq_getD_getElem?, h.settled.value _ hentry, Option.getD_some]
  constructor
  case valid => exact h.valid
  case known =>
    intro key hkey
    obtain ⟨boss, hboss, -⟩ := hcollected.known key hkey
    exact ⟨boss, hboss⟩
  case nodup => exact hcollected.nodup
  case predecessors =>
    intro key hkey k hk
    apply mem_of_transGen _ hkey ((mem_predecessorClosure d key k).mp hk).2
    intro boss hboss predecessor hpredecessor
    exact (h.mem_done predecessor).mp ((hseedable boss hboss).predecessors predecessor hpredecessor)
  case encounterCount => rw [hcount, h.supported]
  case length =>
    rw [hcount, h.finish, SeedPlan.finish, hseeded]
    exact (length_bossStates_foldl_addDone _ _).trans length_replicate
  case index_lt =>
    intro boss hboss
    obtain ⟨hmem, hon⟩ := h.available hboss
    rw [hcount]
    exact hindexed.lt boss hmem hon
  case state =>
    intro i hi
    rw [hcount] at hi
    rw [hstates, getElem?_replicate, if_pos hi, Option.map_some]
    simp only [hmem]
  case initial_ne =>
    rcases hwell.initialBossState with heq | heq <;> rw [heq] <;> decide
  case increasing =>
    rw [hindices, pairwise_map]
    exact pairwise_orderedBosses hindexed h.collected
  case indices =>
    rw [hindices]
    exact hperm.map _
  case extraNames =>
    rw [hextras, map_map]
    rfl
  case extraSet =>
    intro entry hentry boss hboss value hset
    rw [hextras] at hentry
    obtain ⟨extra, -, rfl⟩ := mem_map.mp hentry
    exact hvalue boss hboss extra.name value hset
  case extraDefault =>
    intro extra hextra value hentry hunset
    rw [hextras] at hentry
    obtain ⟨other, -, heq⟩ := mem_map.mp hentry
    obtain ⟨hname, rfl⟩ := Prod.mk.inj heq
    rw [hname, Std.ExtTreeMap.getD_eq_getD_getElem?, h.settled.kept,
      getElem?_defaultExtras hwell.names_nodup hextra, Option.getD_some]
    intro hset
    obtain ⟨⟨name, value⟩, hin, hname'⟩ := mem_map.mp hset
    obtain ⟨boss, hboss, hin⟩ := mem_flatMap.mp hin
    have hsome : boss.extraSaveValues[name]? = some value :=
      Std.ExtTreeMap.mem_toList_iff_getElem?_eq_some.mp hin
    have hsame : name = extra.name := hname'
    rw [hsame, hunset boss ((hmem boss).mp hboss)] at hsome
    cases hsome

end

end

/-- A plan is exact, and every order of the list gives the same one. -/
theorem buildSeedPlan_exact {d : RaidDefinition} {difficulty : UInt8} {bossKeys : List String}
    {plan : SeedPlan} (h : buildSeedPlan d difficulty bossKeys = .ok plan) :
    PlansExactly d difficulty bossKeys plan ∧
      ∀ bossKeys', bossKeys.Perm bossKeys' → buildSeedPlan d difficulty bossKeys' = .ok plan := by
  obtain ⟨done, count, seeded, extras, hbuilt⟩ := buildSeedPlan_eq_ok_iff.mp h
  refine ⟨hbuilt.plansExactly, ?_⟩
  intro bossKeys' hperm
  apply buildSeedPlan_eq_ok_iff.mpr
  exact ⟨done, count, seeded, extras,
    { hbuilt with collected := collectDone_perm hperm hbuilt.collected }⟩

theorem buildSeedPlan_exact_introRaid :
    PlansExactly introRaid 0 ["atramedes", "magmaw"] introPlan ∧
      ∀ bossKeys', ["atramedes", "magmaw"].Perm bossKeys' →
        buildSeedPlan introRaid 0 bossKeys' = .ok introPlan :=
  buildSeedPlan_exact buildSeedPlan_introRaid

end TrinityCore.Bots.RaidLockout
