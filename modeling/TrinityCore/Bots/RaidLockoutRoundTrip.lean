import TrinityCore.Bots.RaidLockoutPlan
import TrinityCore.Lib.StateMachine

/-!
# Seeded lockouts read back

When the save data of a seed plan loads as the plan says. The header and the states always do.
The save extras are raw bytes without separators, and whether they do depends on the values
seeded: the defaults are not checked to be bytes a reader keeps, and neither is NUL.
-/

namespace TrinityCore.Bots.RaidLockout

open List

open ByteStream

/-! ### What a valid definition promises -/

/-- Every item passed its check. -/
theorem check_of_checkDistinct {α κ : Type} [DecidableEq κ] {key : α → κ}
    {check : Bool → α → Option String} {seen : List κ} {l : List α}
    (h : checkDistinct key check seen l = none) {a : α} (ha : a ∈ l) :
    ∃ repeated, check repeated a = none := by
  induction l generalizing seen with
  | nil => cases ha
  | cons b rest ih =>
    rw [checkDistinct, Option.or_eq_none_iff] at h
    cases ha with
    | head => exact ⟨_, h.1⟩
    | tail _ hrest => exact ih h.2 hrest

/-- When repeated keys are refused, the keys differ. -/
theorem nodup_of_checkDistinct {α κ : Type} [DecidableEq κ] {key : α → κ}
    {check : Bool → α → Option String} (hrepeated : ∀ a, check true a ≠ none) {seen : List κ}
    {l : List α} (h : checkDistinct key check seen l = none) :
    (l.map key).Nodup ∧ ∀ a ∈ l, key a ∉ seen := by
  induction l generalizing seen with
  | nil => exact ⟨nodup_nil, fun _ ha => nomatch ha⟩
  | cons b rest ih =>
    rw [checkDistinct, Option.or_eq_none_iff] at h
    obtain ⟨hnodup, hunseen⟩ := ih h.2
    have hb : key b ∉ seen := by
      intro hmem
      rw [decide_eq_true hmem] at h
      exact hrepeated b h.1
    constructor
    · rw [map_cons, nodup_cons]
      refine ⟨?_, hnodup⟩
      intro hmem
      obtain ⟨a, ha, heq⟩ := mem_map.mp hmem
      exact hunseen a ha (heq ▸ mem_cons_self)
    · intro a ha
      cases ha with
      | head => exact hb
      | tail _ hrest => exact fun hmem => hunseen a hrest (mem_cons_of_mem _ hmem)

/-- What the round trip uses of a valid definition. -/
structure WellFormed (d : RaidDefinition) : Prop where
  initialBossState : d.initialBossState = stateNotStarted ∨ d.initialBossState = stateToBeDecided
  default_le : ∀ extra ∈ d.saveExtras, extra.default ≤ 255
  names_nodup : (d.saveExtras.map SaveExtraDefinition.name).Nodup
  value_roundTrips : ∀ boss ∈ d.bosses, ∀ entry ∈ boss.extraSaveValues.toList,
    rawByteRoundTrips entry.2 = true

variable {d : RaidDefinition} {bossKeys : List String} {extra : SaveExtraDefinition}

theorem wellFormed_of_validateDefinition (h : validateDefinition d = none) : WellFormed d := by
  simp only [validateDefinition, Option.or_eq_none_iff, findSome?_eq_none_iff] at h
  obtain ⟨hfields, -, hextras, -, -, hbosses, -⟩ := h
  constructor
  · unfold checkFields at hfields
    grind
  · intro extra hmem
    obtain ⟨repeated, hcheck⟩ := check_of_checkDistinct hextras hmem
    have hencoding : extra.encoding = .rawUint8 := by cases extra.encoding; rfl
    simp only [checkSaveExtra, hencoding, true_and] at hcheck
    split at hcheck
    · cases hcheck
    · split at hcheck
      · cases hcheck
      · next hle => exact UInt32.not_lt.mp hle
  · refine (nodup_of_checkDistinct ?_ hextras).1
    intro extra
    simp [checkSaveExtra]
  · intro boss hboss entry hentry
    have hcheck := hbosses boss hboss
    simp only [checkBoss, Option.or_eq_none_iff, findSome?_eq_none_iff] at hcheck
    have hvalue := hcheck.2.2.2.2.1 entry hentry
    simp only [checkExtraSaveValue] at hvalue
    split at hvalue
    · cases hvalue
    · split at hvalue
      · cases hvalue
      · next hround => simpa using hround

/-! ### The values seeded -/

/-- The value of a save extra: what a done boss leaves there, or the default. -/
def seededValue (d : RaidDefinition) (bossKeys : List String) (extra : SaveExtraDefinition) :
    UInt32 :=
  ((bossKeys.filterMap (findBoss d)).findSome? fun boss =>
    boss.extraSaveValues[extra.name]?).getD extra.default

theorem collectDone_spec {difficulty : UInt8} {keys : List String}
    {done done' : Std.ExtTreeSet String} (h : collectDone d difficulty keys done = .ok done')
    (key : String) : key ∈ done' ↔ key ∈ done ∨ key ∈ keys := by
  induction keys generalizing done with
  | nil =>
    cases h
    simp
  | cons first rest ih =>
    unfold collectDone at h
    split at h
    · cases h
    split at h
    · cases h
    split at h
    · cases h
    · rw [ih h, Std.ExtTreeSet.mem_insert, Std.LawfulEqOrd.compare_eq_iff_eq, mem_cons]
      grind

/-- The done bosses are those of the requested keys. -/
theorem mem_orderedBosses {done : Std.ExtTreeSet String}
    (hdone : ∀ key, key ∈ done ↔ key ∈ bossKeys) {boss : BossDefinition} :
    boss ∈ orderedBosses d done ↔ boss ∈ bossKeys.filterMap (findBoss d) := by
  rw [orderedBosses, mem_insertionSort, mem_filterMap, mem_filterMap]
  simp only [Std.ExtTreeSet.mem_toList, hdone]

/-- The extras after the given entries: every entry is kept, the rest is as before. -/
structure Settled (initial : Std.ExtTreeMap String UInt32) (entries : List (String × UInt32))
    (s : ExtraState) : Prop where
  value : ∀ entry ∈ entries, s.extraValues[entry.1]? = some entry.2
  owned : ∀ name, s.extraOwner.contains name = true ↔ name ∈ entries.map Prod.fst
  kept : ∀ name, name ∉ entries.map Prod.fst → s.extraValues[name]? = initial[name]?

theorem settled_seedExtra {initial : Std.ExtTreeMap String UInt32} {bossKey : String}
    {entries : List (String × UInt32)} {s s' : ExtraState} {entry : String × UInt32}
    (h : Settled initial entries s) (hs : seedExtra bossKey s entry = .ok s') :
    Settled initial (entries ++ [entry]) s' := by
  unfold seedExtra at hs
  split at hs
  · cases hs
  next hconflict =>
  cases hs
  constructor
  · intro other hother
    rw [Std.ExtTreeMap.getElem?_insert]
    split
    · next heq =>
      have hname : entry.1 = other.1 := Std.LawfulEqOrd.compare_eq_iff_eq.mp heq
      rw [mem_append, mem_singleton] at hother
      rcases hother with hold | rfl
      · -- the name was set before, and to the same value
        have hvalue := h.value other hold
        have howned := (h.owned entry.1).mpr (hname ▸ mem_map_of_mem hold)
        have hsame : s.extraValues.getD entry.1 0 = entry.2 := by
          by_contra hne
          exact hconflict ⟨howned, hne⟩
        rw [← hname] at hvalue
        rw [Std.ExtTreeMap.getD_eq_getD_getElem?, hvalue, Option.getD_some] at hsame
        rw [hsame]
      · rfl
    · next hne =>
      rw [mem_append, mem_singleton] at hother
      rcases hother with hold | rfl
      · exact h.value other hold
      · exact absurd Std.ReflOrd.compare_self hne
  · intro name
    rw [Std.ExtTreeMap.contains_insert, Bool.or_eq_true, h.owned, map_append, mem_append,
      beq_iff_eq, Std.LawfulEqOrd.compare_eq_iff_eq]
    simp only [map_cons, map_nil, mem_singleton]
    grind
  · intro name hname
    rw [map_append, mem_append, not_or] at hname
    rw [Std.ExtTreeMap.getElem?_insert, if_neg]
    · exact h.kept name hname.1
    · intro heq
      apply hname.2
      simp [Std.LawfulEqOrd.compare_eq_iff_eq.mp heq]

/-- The plan and the extras after the given bosses. -/
structure Seeded (initial : SeedPlan) (values : Std.ExtTreeMap String UInt32)
    (bosses : List BossDefinition) (s : SeedPlan × ExtraState) : Prop where
  settled : Settled values (bosses.flatMap fun boss => boss.extraSaveValues.toList) s.2
  encounterCount : s.1.encounterCount = initial.encounterCount
  length : s.1.bossStates.length = initial.bossStates.length
  state : ∀ state ∈ s.1.bossStates, state ∈ initial.bossStates ∨ state = stateDone

theorem seeded_seedBoss {initial : SeedPlan} {values : Std.ExtTreeMap String UInt32}
    {done : Std.ExtTreeSet String} {bosses : List BossDefinition} {s s' : SeedPlan × ExtraState}
    {boss : BossDefinition} (h : Seeded initial values bosses s)
    (hs : seedBoss done s boss = .ok s') : Seeded initial values (bosses ++ [boss]) s' := by
  unfold seedBoss at hs
  split at hs
  · cases hs
  split at hs
  · cases hs
  split at hs
  · cases hs
  split at hs
  · cases hs
  next extras hextras =>
  cases hs
  constructor
  · rw [flatMap_append, flatMap_singleton]
    exact StateMachine.foldlM_invariant (fun _ _ _ _ h hs => settled_seedExtra h hs) h.settled
      hextras
  · exact h.encounterCount
  · exact (length_set ..).trans h.length
  · intro state hstate
    rcases mem_or_eq_of_mem_set hstate with hold | rfl
    · exact h.state state hold
    · exact .inr rfl

/-- The default of every save extra is in the initial values. -/
theorem getElem?_defaultExtras {extras : List SaveExtraDefinition}
    (hnodup : (extras.map SaveExtraDefinition.name).Nodup) (hmem : extra ∈ extras) :
    (defaultExtras extras)[extra.name]? = some extra.default := by
  induction extras using reverseRecOn with
  | nil => cases hmem
  | append_singleton rest last ih =>
    rw [map_append, nodup_append] at hnodup
    rw [defaultExtras, foldl_append, foldl_cons, foldl_nil, Std.ExtTreeMap.getElem?_insert]
    rw [mem_append, mem_singleton] at hmem
    split
    · next heq =>
      have hname : last.name = extra.name := Std.LawfulEqOrd.compare_eq_iff_eq.mp heq
      rcases hmem with hold | rfl
      · exact absurd hname.symm
          (hnodup.2.2 extra.name (mem_map_of_mem hold) last.name (by simp))
      · rfl
    · next hne =>
      rcases hmem with hold | rfl
      · exact ih hnodup.1 hold
      · exact absurd Std.ReflOrd.compare_self hne

/-- The values after all done bosses are the seeded values. -/
theorem getD_extraValues (hd : WellFormed d) {bosses : List BossDefinition}
    (hbosses : ∀ boss, boss ∈ bosses ↔ boss ∈ bossKeys.filterMap (findBoss d)) {s : ExtraState}
    (h : Settled (defaultExtras d.saveExtras)
      (bosses.flatMap fun boss => boss.extraSaveValues.toList) s)
    (hmem : extra ∈ d.saveExtras) :
    s.extraValues.getD extra.name 0 = seededValue d bossKeys extra := by
  rw [Std.ExtTreeMap.getD_eq_getD_getElem?, seededValue]
  cases hfind : (bossKeys.filterMap (findBoss d)).findSome? fun boss =>
      boss.extraSaveValues[extra.name]? with
  | some value =>
    obtain ⟨boss, hboss, hvalue⟩ := exists_of_findSome?_eq_some hfind
    have hentry : (extra.name, value) ∈
        bosses.flatMap fun boss => boss.extraSaveValues.toList := by
      rw [mem_flatMap]
      exact ⟨boss, (hbosses boss).mpr hboss,
        Std.ExtTreeMap.mem_toList_iff_getElem?_eq_some.mpr hvalue⟩
    rw [h.value _ hentry]
    rfl
  | none =>
    have hnone : extra.name ∉
        (bosses.flatMap fun boss => boss.extraSaveValues.toList).map Prod.fst := by
      intro hname
      obtain ⟨⟨name, value⟩, hentry, rfl⟩ := mem_map.mp hname
      obtain ⟨boss, hboss, hin⟩ := mem_flatMap.mp hentry
      have hvalue := findSome?_eq_none_iff.mp hfind boss ((hbosses boss).mp hboss)
      rw [Std.ExtTreeMap.mem_toList_iff_getElem?_eq_some.mp hin] at hvalue
      cases hvalue
    rw [h.kept _ hnone, getElem?_defaultExtras hd.names_nodup hmem]
    rfl

/-- Every seeded value is a byte. -/
theorem seededValue_le (hd : WellFormed d) (bossKeys : List String) (hmem : extra ∈ d.saveExtras) :
    seededValue d bossKeys extra ≤ 255 := by
  unfold seededValue
  cases hfind : (bossKeys.filterMap (findBoss d)).findSome? fun boss =>
      boss.extraSaveValues[extra.name]? with
  | none => exact hd.default_le extra hmem
  | some value =>
    obtain ⟨boss, hboss, hvalue⟩ := exists_of_findSome?_eq_some hfind
    obtain ⟨key, -, hkey⟩ := mem_filterMap.mp hboss
    have hround := hd.value_roundTrips boss (mem_of_find?_eq_some hkey) (extra.name, value)
      (Std.ExtTreeMap.mem_toList_iff_getElem?_eq_some.mpr hvalue)
    rw [rawByteRoundTrips, Bool.and_eq_true, decide_eq_true_iff] at hround
    exact hround.1

/-- What a plan says about itself. -/
structure Planned (d : RaidDefinition) (bossKeys : List String) (plan : SeedPlan) : Prop where
  wellFormed : WellFormed d
  length : plan.bossStates.length = plan.encounterCount.toNat
  state : ∀ state ∈ plan.bossStates,
    state = stateNotStarted ∨ state = stateDone ∨ state = stateToBeDecided
  extraValues : plan.extraValues =
    d.saveExtras.map fun extra => (extra.name, seededValue d bossKeys extra)
  saveData : plan.saveData = buildSaveData d.scriptHeader plan.bossStates
    (d.saveExtras.map fun extra => (extra.encoding, seededValue d bossKeys extra))

theorem planned_of_buildSeedPlan {difficulty : UInt8} {plan : SeedPlan}
    (h : buildSeedPlan d difficulty bossKeys = .ok plan) : Planned d bossKeys plan := by
  unfold buildSeedPlan at h
  split at h
  · cases h
  next hvalid =>
  have hd := wellFormed_of_validateDefinition hvalid
  split at h
  · cases h
  next count hcount =>
  split at h
  · cases h
  next done hdone =>
  have hkeys (key : String) : key ∈ done ↔ key ∈ bossKeys := by
    rw [collectDone_spec hdone]
    simp
  simp only at h
  split at h
  · cases h
  next plan' extras hseed =>
  cases h
  have hinit : Seeded
      { difficulty := difficulty, encounterCount := count,
        bossStates := replicate count.toNat d.initialBossState }
      (defaultExtras d.saveExtras) []
      ({ difficulty := difficulty, encounterCount := count,
         bossStates := replicate count.toNat d.initialBossState },
        { extraValues := defaultExtras d.saveExtras }) :=
    ⟨⟨by simp, by simp, fun _ _ => rfl⟩, rfl, rfl, fun _ h => .inl h⟩
  have hseeded := StateMachine.foldlM_invariant (fun _ _ _ _ h hs => seeded_seedBoss h hs) hinit
    hseed
  rw [nil_append] at hseeded
  have hvalue (extra : SaveExtraDefinition) (hmem : extra ∈ d.saveExtras) :
      extras.extraValues.getD extra.name 0 = seededValue d bossKeys extra :=
    getD_extraValues hd (fun _ => mem_orderedBosses hkeys) hseeded.settled hmem
  constructor
  · exact hd
  · show plan'.bossStates.length = plan'.encounterCount.toNat
    rw [hseeded.length, hseeded.encounterCount, length_replicate]
  · intro state hstate
    rcases hseeded.state state hstate with hold | rfl
    · rw [eq_of_mem_replicate hold]
      exact hd.initialBossState.imp_right .inr
    · exact .inr (.inl rfl)
  · apply map_congr_left
    intro extra hmem
    rw [hvalue extra hmem]
  · show buildSaveData d.scriptHeader plan'.bossStates _ = _
    congr 1
    apply map_congr_left
    intro extra hmem
    rw [hvalue extra hmem]

/-! ### Reading the header and the states -/

/-- The letters of the header read back; a space may be left. -/
theorem readHeader_writeHeader (header : List UInt8) (n : Nat) (rest : List UInt8) :
    ∃ m, readHeader header (replicate n 32 ++ (writeHeader header ++ rest)) =
      some (replicate m 32 ++ rest) := by
  induction header generalizing n with
  | nil => exact ⟨n, rfl⟩
  | cons c header ih =>
    by_cases hc : isAlpha c = true
    · obtain ⟨m, hm⟩ := ih 1
      refine ⟨m, ?_⟩
      have hwrite : writeHeader (c :: header) ++ rest =
          c :: (replicate 1 32 ++ (writeHeader header ++ rest)) := by
        simp [writeHeader, hc]
      rw [hwrite, readHeader, readChar_replicate, readChar_cons (isSpace_eq_false_of_isAlpha hc)]
      simpa [hc] using hm
    · obtain ⟨m, hm⟩ := ih n
      refine ⟨m, ?_⟩
      have hwrite : writeHeader (c :: header) = writeHeader header := by
        simp [writeHeader, hc]
      rw [hwrite, readHeader]
      simpa [hc] using hm

/-- Written states load; a space may be left. -/
theorem readStates_writeStates (states : List UInt8) (n : Nat) (rest : List UInt8) :
    ∃ m, readStates states.length (replicate n 32 ++ (writeStates states ++ rest)) =
      some (states.map fun state => loadState state.toUInt32, replicate m 32 ++ rest) := by
  induction states generalizing n with
  | nil => exact ⟨n, rfl⟩
  | cons state states ih =>
    obtain ⟨m, hm⟩ := ih 1
    refine ⟨m, ?_⟩
    have hwrite : writeStates (state :: states) ++ rest =
        decimal state.toNat ++ 32 :: (writeStates states ++ rest) := by
      simp [writeStates]
    have hbound : state.toNat < 2 ^ 32 := lt_trans state.toNat_lt (by decide)
    rw [hwrite, length_cons, readStates, readUInt32_replicate,
      readUInt32_decimal hbound (by decide)]
    have hstate : UInt32.ofNat state.toNat = state.toUInt32 := by
      apply UInt32.toNat_inj.mp
      rw [UInt8.toNat_toUInt32, UInt32.toNat_ofNat_of_lt' hbound]
    simp only [replicate_one, singleton_append] at hm
    simp only [hm, map_cons, hstate]

/-- The states a plan holds load as they are. -/
theorem loadState_toUInt32 {state : UInt8}
    (h : state = stateNotStarted ∨ state = stateDone ∨ state = stateToBeDecided) :
    loadState state.toUInt32 = state := by
  rcases h with rfl | rfl | rfl <;> decide

theorem ne_zero_of_mem_writeHeader {header : List UInt8} {c : UInt8}
    (h : c ∈ writeHeader header) : c ≠ 0 := by
  obtain ⟨letter, hletter, hc⟩ := mem_flatMap.mp h
  rw [mem_cons, mem_singleton] at hc
  rcases hc with rfl | rfl
  · exact isAlpha_ne_zero (mem_filter.mp hletter).2
  · decide

theorem ne_zero_of_mem_writeStates {states : List UInt8} {c : UInt8}
    (h : c ∈ writeStates states) : c ≠ 0 := by
  obtain ⟨state, -, hc⟩ := mem_flatMap.mp h
  rw [mem_append, mem_singleton] at hc
  rcases hc with hdigit | rfl
  · exact isDigit_ne_zero (isDigit_of_mem_decimal hdigit)
  · decide

/-! ### Reading the extras -/

/-- The extras loop reads one raw byte for every default. -/
theorem readExtras_eq (extras : List SaveExtraDefinition) (stream : Option (List UInt8)) :
    readExtras extras stream = zip (extras.map SaveExtraDefinition.name)
      (readRawBytes (extras.map SaveExtraDefinition.default) stream) := by
  induction extras generalizing stream with
  | nil => rfl
  | cons extra extras ih =>
    rw [readExtras, map_cons, map_cons, readRawBytes]
    cases stream.bind readChar with
    | none => exact congrArg (_ :: ·) (ih none)
    | some pair => exact congrArg (_ :: ·) (ih (some pair.2))

theorem writeExtras_map (extras : List SaveExtraDefinition) (value : SaveExtraDefinition → UInt32) :
    writeExtras (extras.map fun extra => (extra.encoding, value extra)) =
      extras.map fun extra => (value extra).toUInt8 := by
  induction extras with
  | nil => rfl
  | cons extra extras ih =>
    have hencoding : extra.encoding = .rawUint8 := by cases extra.encoding; rfl
    rw [map_cons, map_cons, ← ih, hencoding]
    rfl

/-- The data of a plan loads, with the states of the plan and what the raw bytes give. -/
theorem parseSaveData_saveData {plan : SeedPlan} (h : Planned d bossKeys plan) :
    parseSaveData plan.saveData d plan.encounterCount =
      some (plan.bossStates,
        zip (d.saveExtras.map SaveExtraDefinition.name)
          (readRawBytes (d.saveExtras.map SaveExtraDefinition.default)
            (some (cString
              (d.saveExtras.map fun extra => (seededValue d bossKeys extra).toUInt8))))) := by
  have hdata : cString plan.saveData = writeHeader d.scriptHeader ++
      (writeStates plan.bossStates ++
        cString (d.saveExtras.map fun extra => (seededValue d bossKeys extra).toUInt8)) := by
    rw [h.saveData, buildSaveData, append_assoc,
      cString_append (fun _ => ne_zero_of_mem_writeHeader),
      cString_append (fun _ => ne_zero_of_mem_writeStates), writeExtras_map]
  obtain ⟨n, hheader⟩ := readHeader_writeHeader d.scriptHeader 0 (writeStates plan.bossStates ++
    cString (d.saveExtras.map fun extra => (seededValue d bossKeys extra).toUInt8))
  obtain ⟨m, hstates⟩ := readStates_writeStates plan.bossStates n
    (cString (d.saveExtras.map fun extra => (seededValue d bossKeys extra).toUInt8))
  have hload : plan.bossStates.map (fun state => loadState state.toUInt32) = plan.bossStates := by
    conv_rhs => rw [← map_id plan.bossStates]
    apply map_congr_left
    intro state hstate
    exact loadState_toUInt32 (h.state state hstate)
  rw [replicate_zero, nil_append] at hheader
  rw [parseSaveData, hdata, hheader]
  simp only [← h.length, hstates, hload, readExtras_eq, readRawBytes_replicate]

/-! ### Round trips -/

/-- The data of the plan loads as the plan says: states, each of them one a native save can
have, and extras. -/
def RoundTrips (d : RaidDefinition) (plan : SeedPlan) : Prop :=
  parseSaveData plan.saveData d plan.encounterCount = some (plan.bossStates, plan.extraValues) ∧
    ∀ state ∈ plan.bossStates,
      state = stateNotStarted ∨ state = stateDone ∨ state = stateToBeDecided

/-- The save extras from the first on whose seeded value is NUL or white space. -/
def fragileExtras (d : RaidDefinition) (bossKeys : List String) : List SaveExtraDefinition :=
  d.saveExtras.dropWhile fun extra =>
    rawByteRoundTrips (seededValue d bossKeys extra) && seededValue d bossKeys extra != 0

/-- Every fragile extra is seeded with its default, and those in front of the first NUL with
white space. -/
def FragileAtDefault (d : RaidDefinition) (bossKeys : List String) : Prop :=
  (∀ extra ∈ fragileExtras d bossKeys, seededValue d bossKeys extra = extra.default) ∧
    ∀ extra ∈ (fragileExtras d bossKeys).takeWhile fun extra => seededValue d bossKeys extra != 0,
      rawByteRoundTrips (seededValue d bossKeys extra) = false

section

variable {value : UInt32}

theorem toUInt32_toUInt8 (h : value ≤ 255) : value.toUInt8.toUInt32 = value := by
  have hle : value.toNat ≤ 255 := UInt32.le_iff_toNat_le.mp h
  apply UInt32.toNat_inj.mp
  rw [UInt8.toNat_toUInt32, UInt32.toNat_toUInt8]
  omega

theorem isSpace_toUInt8 (h : value ≤ 255) :
    isSpace value.toUInt8 = !rawByteRoundTrips value := by
  have hle : value.toNat ≤ 255 := UInt32.le_iff_toNat_le.mp h
  have hbyte : value.toUInt8.toNat = value.toNat := by
    rw [UInt32.toNat_toUInt8]
    omega
  rw [Bool.eq_iff_iff, isSpace, rawByteRoundTrips]
  simp only [Bool.or_eq_true, Bool.and_eq_true, Bool.not_eq_true', Bool.and_eq_false_iff,
    Bool.not_eq_false', beq_iff_eq, decide_eq_true_iff, decide_eq_false_iff_not,
    UInt8.le_iff_toNat_le, UInt32.le_iff_toNat_le, ← UInt8.toNat_inj, ← UInt32.toNat_inj, hbyte]
  simp only [UInt8.reduceToNat, UInt32.reduceToNat]
  omega

theorem toUInt8_bne_zero (h : value ≤ 255) : (value.toUInt8 != 0) = (value != 0) := by
  have hback := toUInt32_toUInt8 h
  rw [Bool.eq_iff_iff, bne_iff_ne, bne_iff_ne, not_iff_not]
  constructor
  · intro hzero
    rw [← hback, hzero]
    rfl
  · rintro rfl
    rfl

theorem isPlain_toUInt8 (h : value ≤ 255) :
    isPlain value.toUInt8 = (rawByteRoundTrips value && value != 0) := by
  rw [isPlain, isSpace_toUInt8 h, toUInt8_bne_zero h, Bool.not_not]

end

/-- Tests that agree on a list drop and take the same items. -/
theorem dropWhile_congr {α : Type} {p q : α → Bool} {l : List α} (h : ∀ a ∈ l, p a = q a) :
    l.dropWhile p = l.dropWhile q := by
  induction l with
  | nil => rfl
  | cons a l ih =>
    rw [dropWhile_cons, dropWhile_cons, h a mem_cons_self,
      ih fun b hb => h b (mem_cons_of_mem a hb)]

theorem takeWhile_congr {α : Type} {p q : α → Bool} {l : List α} (h : ∀ a ∈ l, p a = q a) :
    l.takeWhile p = l.takeWhile q := by
  induction l with
  | nil => rfl
  | cons a l ih =>
    rw [takeWhile_cons, takeWhile_cons, h a mem_cons_self,
      ih fun b hb => h b (mem_cons_of_mem a hb)]

/-- The default and the seeded byte of a save extra. -/
def seededField (d : RaidDefinition) (bossKeys : List String) (extra : SaveExtraDefinition) :
    UInt32 × UInt8 :=
  (extra.default, (seededValue d bossKeys extra).toUInt8)

theorem readsBack_rawBytes_iff (hd : WellFormed d) (bossKeys : List String) :
    ReadsBack (d.saveExtras.map (seededField d bossKeys)) ↔ FragileAtDefault d bossKeys := by
  have hfragile : (d.saveExtras.map (seededField d bossKeys)).dropWhile
      (fun field => isPlain field.2) =
        (fragileExtras d bossKeys).map (seededField d bossKeys) := by
    rw [dropWhile_map, fragileExtras]
    congr 1
    apply dropWhile_congr
    intro extra hmem
    exact isPlain_toUInt8 (seededValue_le hd bossKeys hmem)
  have hmem (extra : SaveExtraDefinition) (h : extra ∈ fragileExtras d bossKeys) :
      seededValue d bossKeys extra ≤ 255 :=
    seededValue_le hd bossKeys ((dropWhile_sublist _).mem h)
  have htake : ((fragileExtras d bossKeys).map (seededField d bossKeys)).takeWhile
      (fun field => field.2 != 0) =
        ((fragileExtras d bossKeys).takeWhile fun extra =>
          seededValue d bossKeys extra != 0).map (seededField d bossKeys) := by
    rw [takeWhile_map]
    congr 1
    apply takeWhile_congr
    intro extra h
    exact toUInt8_bne_zero (hmem extra h)
  simp only [ReadsBack, hfragile, htake, forall_mem_map, FragileAtDefault]
  apply and_congr
  · apply forall₂_congr
    intro extra h
    rw [seededField, toUInt32_toUInt8 (hmem extra h)]
  · apply forall₂_congr
    intro extra h
    rw [seededField, isSpace_toUInt8 (hmem extra ((takeWhile_sublist _).mem h)), Bool.not_eq_true']

/-- A seeded lockout reads back exactly when its fragile extras keep their defaults. -/
theorem roundTrips_iff {d : RaidDefinition} {difficulty : UInt8} {bossKeys : List String}
    {plan : SeedPlan} (h : buildSeedPlan d difficulty bossKeys = .ok plan) :
    RoundTrips d plan ↔ FragileAtDefault d bossKeys := by
  have hplan := planned_of_buildSeedPlan h
  rw [← readsBack_rawBytes_iff hplan.wellFormed, ← readRawBytes_eq_iff, RoundTrips,
    and_iff_left hplan.state, parseSaveData_saveData hplan, hplan.extraValues]
  have hfst : (d.saveExtras.map (seededField d bossKeys)).map Prod.fst =
      d.saveExtras.map SaveExtraDefinition.default := map_map
  have hsnd : (d.saveExtras.map (seededField d bossKeys)).map Prod.snd =
      d.saveExtras.map fun extra => (seededValue d bossKeys extra).toUInt8 := map_map
  have hvalue : (d.saveExtras.map (seededField d bossKeys)).map (fun field => field.2.toUInt32) =
      d.saveExtras.map (seededValue d bossKeys) := by
    rw [map_map]
    apply map_congr_left
    intro extra hmem
    exact toUInt32_toUInt8 (seededValue_le hplan.wellFormed bossKeys hmem)
  have hzip : (d.saveExtras.map fun extra => (extra.name, seededValue d bossKeys extra)) =
      zip (d.saveExtras.map SaveExtraDefinition.name)
        (d.saveExtras.map (seededValue d bossKeys)) := zip_map'.symm
  rw [hfst, hsnd, hvalue, hzip]
  generalize hread : readRawBytes _ _ = read
  have hlength : read.length = d.saveExtras.length := by
    rw [← hread, length_readRawBytes, length_map]
  constructor
  · intro heq
    have hpairs := congrArg (map Prod.snd) (Prod.mk.inj (Option.some.inj heq)).2
    rwa [map_snd_zip (by simp [hlength]), map_snd_zip (by simp)] at hpairs
  · intro heq
    rw [heq]

/-- A raid of two bosses with two save extras, one of which the second boss sets. -/
def introRaid : RaidDefinition where
  schema := schemaVersion
  raid := "blackwing_descent"
  mapId := 669
  scriptName := "instance_blackwing_descent"
  scriptHeader := [66, 87, 68]
  difficulties := [0]
  encounterCount := Std.ExtTreeMap.ofList [((0 : UInt8), (2 : UInt32))]
  bosses :=
    [{ key := "magmaw", bossIndex := 0, dungeonEncounterBit := 2, deadDbSpawnEntriesKnown := true
       deadDbSpawnEntries := [41570] },
     { key := "atramedes", bossIndex := 1, dungeonEncounterBit := 0, predecessors := ["magmaw"]
       extraSaveValues := Std.ExtTreeMap.ofList [("atramedes_intro_state", (3 : UInt32))]
       deadDbSpawnEntriesKnown := true, summonedEntries := [41442] }]
  saveExtras := [{ name := "magmaw_intro_state" }, { name := "atramedes_intro_state" }]

/-- Its plan with both bosses done: the first extra is written as NUL. -/
def introPlan : SeedPlan where
  difficulty := 0
  encounterCount := 2
  bossStates := [3, 3]
  bossesDone := ["magmaw", "atramedes"]
  bossIndicesDone := [0, 1]
  completedEncounterMask := 5
  extraValues := [("magmaw_intro_state", 0), ("atramedes_intro_state", 3)]
  saveData := [66, 32, 87, 32, 68, 32, 51, 32, 51, 32, 0, 3]
  deadDbSpawns := [("magmaw", 41570)]
  summonedEntries := [("atramedes", 41442)]

theorem buildSeedPlan_introRaid :
    buildSeedPlan introRaid 0 ["atramedes", "magmaw"] = .ok introPlan := by
  decide +kernel

theorem roundTrips_iff_introRaid :
    RoundTrips introRaid introPlan ↔ FragileAtDefault introRaid ["atramedes", "magmaw"] :=
  roundTrips_iff buildSeedPlan_introRaid

/-- The second extra is behind the NUL, and loads as its default. -/
theorem introPlan_loses_extra :
    buildSeedPlan introRaid 0 ["atramedes", "magmaw"] = .ok introPlan ∧
      ¬ RoundTrips introRaid introPlan := by
  refine ⟨buildSeedPlan_introRaid, ?_⟩
  intro h
  have hread : parseSaveData introPlan.saveData introRaid introPlan.encounterCount =
      some ([3, 3], [("magmaw_intro_state", 0), ("atramedes_intro_state", 0)]) := by
    decide +kernel
  have hextras := congrArg (Option.map Prod.snd) (hread.symm.trans h.1)
  exact absurd hextras (by decide)

end TrinityCore.Bots.RaidLockout
