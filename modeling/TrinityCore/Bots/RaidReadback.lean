import TrinityCore.Bots.RaidSeedPlans

/-!
# Readbacks of a seeded lockout

The positional parser of save data as it was written, and the comparison of what a server shows
with what was seeded. A readback matches exactly when it is a faithful one.
-/

namespace TrinityCore.Bots.RaidLockout

open List

open ByteStream

/-! ### Save data as written -/

/-- The header loop of `ParseSaveDataWritten`: what is left of the data. -/
def readWrittenHeader : List UInt8 → List UInt8 → Option (List UInt8)
  | [], data => some data
  | c :: header, data =>
    if !isAlpha c then readWrittenHeader header data
    else
      match data with
      | observed :: separator :: data =>
        if observed ≠ c ∨ separator ≠ 32 then none else readWrittenHeader header data
      | _ => none

/-- The digits of one state, ten at most. -/
def writtenDigits (data : List UInt8) : List UInt8 := (data.takeWhile isDigit).take 10

/-- The state loop of `ParseSaveDataWritten`. Ten digits do not overflow its `uint64_t`. -/
def readWrittenStates : Nat → List UInt8 → Option (List UInt32 × List UInt8)
  | 0, data => some ([], data)
  | count + 1, data =>
    let digits := writtenDigits data
    match data.drop digits.length with
    | [] => none
    | separator :: rest =>
      if digits.isEmpty ∨ separator ≠ 32 ∨ 0xFFFFFFFF < digitsValue digits then none
      else
        match readWrittenStates count rest with
        | none => none
        | some (states, rest) => some (UInt32.ofNat (digitsValue digits) :: states, rest)

/-- `ParseSaveDataWritten`: the states and the raw extras. -/
def parseSaveDataWritten (data header : List UInt8) (encounterCount : UInt32) (extraCount : Nat) :
    Option (List UInt32 × List UInt8) :=
  match readWrittenHeader header data with
  | none => none
  | some data =>
    match readWrittenStates encounterCount.toNat data with
    | none => none
    | some (states, rest) => if rest.length ≠ extraCount then none else some (states, rest)

/-- The digits of a state: one to ten, of a number of 32 bits. -/
structure IsToken (token : List UInt8) (state : UInt32) : Prop where
  digits : ∀ c ∈ token, isDigit c = true
  ne_nil : token ≠ []
  length : token.length ≤ 10
  value : digitsValue token = state.toNat

/-- Tokens, each with a space. -/
def writeTokens (tokens : List (List UInt8)) : List UInt8 :=
  tokens.flatMap fun token => token ++ [32]

/-- What save data says by position: the header letters, a token for each state, the extras. -/
def Written (header : List UInt8) (states : List UInt32) (extras data : List UInt8) : Prop :=
  ∃ tokens, List.Forall₂ IsToken tokens states ∧
    data = writeHeader header ++ (writeTokens tokens ++ extras)

theorem readWrittenHeader_eq_some_iff (header data rest : List UInt8) :
    readWrittenHeader header data = some rest ↔ data = writeHeader header ++ rest := by
  induction header generalizing data with
  | nil => simp [readWrittenHeader, writeHeader]
  | cons c header ih =>
    by_cases hc : isAlpha c = true
    · have hwrite : writeHeader (c :: header) = c :: 32 :: writeHeader header := by
        simp [writeHeader, hc]
      rw [hwrite]
      cases data with
      | nil => simp [readWrittenHeader, hc]
      | cons observed data =>
        cases data with
        | nil => simp [readWrittenHeader, hc]
        | cons separator data =>
          by_cases hsame : observed = c ∧ separator = 32
          · obtain ⟨rfl, rfl⟩ := hsame
            simp [readWrittenHeader, hc, ih]
          · have hdiffer : observed ≠ c ∨ separator ≠ 32 := not_and_or.mp hsame
            rw [readWrittenHeader, if_neg (by simpa using hc), if_pos hdiffer]
            simpa using fun hobserved hseparator _ => hsame ⟨hobserved, hseparator⟩
    · have hwrite : writeHeader (c :: header) = writeHeader header := by simp [writeHeader, hc]
      have hskip : readWrittenHeader (c :: header) data = readWrittenHeader header data := by
        simp [readWrittenHeader, hc]
      rw [hwrite, hskip, ih]

/-- The digits in front of a space are read whole when there are ten at most. -/
theorem writtenDigits_append {token : List UInt8} (hdigits : ∀ c ∈ token, isDigit c = true)
    (hlength : token.length ≤ 10) (rest : List UInt8) :
    writtenDigits (token ++ 32 :: rest) = token := by
  have hspace : isDigit 32 = false := by decide
  rw [writtenDigits, takeWhile_append_of_pos hdigits, takeWhile_cons, hspace]
  simpa using take_of_length_le hlength

/-- What is read of the data is its start. -/
theorem writtenDigits_append_drop (data : List UInt8) :
    writtenDigits data ++ data.drop (writtenDigits data).length = data := by
  have hprefix : writtenDigits data <+: data :=
    (List.take_prefix _ _).trans (List.takeWhile_prefix _)
  exact prefix_iff_eq_append.mp hprefix

theorem isToken_writtenDigits {data : List UInt8} (hne : ¬ (writtenDigits data).isEmpty = true)
    (hbound : digitsValue (writtenDigits data) ≤ 0xFFFFFFFF) :
    IsToken (writtenDigits data) (UInt32.ofNat (digitsValue (writtenDigits data))) := by
  constructor
  · intro c hc
    exact mem_takeWhile_imp (mem_of_mem_take hc)
  · simpa using hne
  · exact length_take_le _ _
  · rw [UInt32.toNat_ofNat_of_lt' (Nat.lt_succ_of_le hbound)]

theorem readWrittenStates_eq_some_iff (count : Nat) (data : List UInt8) (states : List UInt32)
    (rest : List UInt8) :
    readWrittenStates count data = some (states, rest) ↔
      states.length = count ∧
        ∃ tokens, List.Forall₂ IsToken tokens states ∧ data = writeTokens tokens ++ rest := by
  induction count generalizing data states with
  | zero =>
    rw [readWrittenStates]
    constructor
    · intro h
      cases h
      exact ⟨rfl, [], .nil, rfl⟩
    · rintro ⟨hlength, tokens, htokens, rfl⟩
      have hstates : states = [] := length_eq_zero_iff.mp hlength
      subst hstates
      cases htokens
      rfl
  | succ count ih =>
    constructor
    · intro h
      rw [readWrittenStates] at h
      split at h
      · cases h
      next separator after hdrop =>
      split at h
      · cases h
      next htoken =>
      rw [not_or, not_or, not_not, Nat.not_lt] at htoken
      obtain ⟨hne, rfl, hbound⟩ := htoken
      split at h
      · cases h
      next states' rest' hrest =>
      cases h
      obtain ⟨hlength, tokens, htokens, rfl⟩ := (ih after states').mp hrest
      refine ⟨congrArg _ hlength, writtenDigits data :: tokens, .cons ?_ htokens, ?_⟩
      · exact isToken_writtenDigits hne hbound
      · have hsplit := writtenDigits_append_drop data
        rw [hdrop] at hsplit
        refine hsplit.symm.trans ?_
        simp [writeTokens]
    · rintro ⟨hlength, tokens, htokens, rfl⟩
      cases htokens with
      | nil => cases hlength
      | @cons token state tokens states htoken htokens =>
        have hdata : writeTokens (token :: tokens) ++ rest =
            token ++ 32 :: (writeTokens tokens ++ rest) := by
          simp [writeTokens]
        have hread := (ih (writeTokens tokens ++ rest) states).mpr
          ⟨Nat.succ.inj hlength, tokens, htokens, rfl⟩
        have hdrop : (token ++ 32 :: (writeTokens tokens ++ rest)).drop token.length =
            32 :: (writeTokens tokens ++ rest) := drop_left
        have hread' : ¬ (token.isEmpty = true ∨ (32 : UInt8) ≠ 32 ∨
            0xFFFFFFFF < state.toNat) := by
          have hlt := state.toNat_lt
          rintro (hempty | hspace | hlarge)
          · exact htoken.ne_nil (isEmpty_iff.mp hempty)
          · exact hspace rfl
          · omega
        rw [hdata, readWrittenStates, writtenDigits_append htoken.digits htoken.length]
        simp only [hdrop, htoken.value, if_neg hread', hread, UInt32.ofNat_toNat]

/-- The parser reads what the data says by position. -/
theorem parseSaveDataWritten_eq_some_iff (data header : List UInt8) (encounterCount : UInt32)
    (extraCount : Nat) (states : List UInt32) (extras : List UInt8) :
    parseSaveDataWritten data header encounterCount extraCount = some (states, extras) ↔
      states.length = encounterCount.toNat ∧ extras.length = extraCount ∧
        Written header states extras data := by
  rw [parseSaveDataWritten]
  constructor
  · intro h
    split at h
    · cases h
    next rest hheader =>
    split at h
    · cases h
    next states' extras' hstates =>
    split at h
    · cases h
    next hextras =>
    cases h
    obtain ⟨hlength, tokens, htokens, rfl⟩ := (readWrittenStates_eq_some_iff ..).mp hstates
    rw [readWrittenHeader_eq_some_iff] at hheader
    exact ⟨hlength, not_not.mp hextras, tokens, htokens, hheader⟩
  · rintro ⟨hlength, hextras, tokens, htokens, rfl⟩
    have hheader := (readWrittenHeader_eq_some_iff header
      (writeHeader header ++ (writeTokens tokens ++ extras)) _).mpr rfl
    have hstates := (readWrittenStates_eq_some_iff encounterCount.toNat
      (writeTokens tokens ++ extras) states extras).mpr ⟨hlength, tokens, htokens, rfl⟩
    simp only [hheader, hstates, hextras, ne_eq, not_true_eq_false, if_false]

/-- The decimal text of a state is a token. -/
theorem isToken_decimal (state : UInt8) : IsToken (decimal state.toNat) state.toUInt32 := by
  constructor
  · exact fun c hc => isDigit_of_mem_decimal hc
  · exact decimal_ne_nil _
  · rw [decimal, length_map, Nat.length_toDigits_le_iff (by decide) (by decide)]
    exact lt_trans state.toNat_lt (by decide)
  · rw [digitsValue_decimal, UInt8.toNat_toUInt32]

/-- The raw bytes of save extras. -/
def extraBytes (extras : List (SaveExtraEncoding × UInt32)) : List UInt8 :=
  extras.map fun extra => extra.2.toUInt8

theorem writeExtras_eq_extraBytes (extras : List (SaveExtraEncoding × UInt32)) :
    writeExtras extras = extraBytes extras := by
  induction extras with
  | nil => rfl
  | cons extra extras ih =>
    obtain ⟨⟨⟩, value⟩ := extra
    exact congrArg _ ih

/-- Save data says by position what it was built from. -/
theorem written_buildSaveData (header states : List UInt8)
    (extras : List (SaveExtraEncoding × UInt32)) :
    Written header (states.map UInt8.toUInt32) (extraBytes extras)
      (buildSaveData header states extras) := by
  refine ⟨states.map fun state => decimal state.toNat, ?_, ?_⟩
  · rw [forall₂_map_left_iff, forall₂_map_right_iff, forall₂_same]
    exact fun state _ => isToken_decimal state
  · rw [buildSaveData, writeExtras_eq_extraBytes, append_assoc, writeStates, writeTokens,
      flatMap_map]

/-- What was built is recovered, whatever the bytes. -/
theorem parseSaveDataWritten_buildSaveData (header states : List UInt8)
    (extras : List (SaveExtraEncoding × UInt32)) {encounterCount : UInt32}
    (h : states.length = encounterCount.toNat) :
    parseSaveDataWritten (buildSaveData header states extras) header encounterCount
      extras.length = some (states.map UInt8.toUInt32, extraBytes extras) := by
  apply (parseSaveDataWritten_eq_some_iff ..).mpr
  exact ⟨by simpa using h, by simp [extraBytes], written_buildSaveData header states extras⟩

/-! ### The comparison -/

/-- `LockoutExpectation`. -/
structure LockoutExpectation where
  scriptHeader : List UInt8
  encounterCount : UInt32 := 0
  states : List UInt8 := []
  bossesDone : List String := []
  /-- Every boss on the difficulty. -/
  bossIndexByKey : Std.ExtTreeMap String UInt32 := ∅
  completedEncounterMask : UInt32 := 0
  saveData : List UInt8 := []
  extraCount : Nat := 0

/-- `ReadbackComparison`. -/
structure ReadbackComparison where
  extraDone : List String := []
  missingDone : List String := []
  lockoutIntact : Bool := false
  statesEquivalent : Bool := false
  maskMatches : Bool := false
  saveDataMatches : Bool := false
  saveDataEquivalent : Bool := false
  seedMatch : Bool := false
  deriving DecidableEq, Repr

/-- `IsUntouchedState`. -/
def isUntouchedState (state : UInt32) : Bool :=
  state == stateNotStarted.toUInt32 || state == stateToBeDecided.toUInt32

/-- The loop of `StatesEquivalentForSeed` over both lists. -/
def statesEquivalentFrom : List UInt32 → List UInt32 → Bool
  | expected :: expecteds, observed :: observeds =>
    let seededDone := expected == stateDone.toUInt32
    if (if seededDone then observed != stateDone.toUInt32
        else !isUntouchedState observed || !isUntouchedState expected) then false
    else statesEquivalentFrom expecteds observeds
  | _, _ => true

/-- `StatesEquivalentForSeed`, of states as `uint32_t`. -/
def statesEquivalentForSeed (expected observed : List UInt32) : Bool :=
  if expected.length ≠ observed.length then false else statesEquivalentFrom expected observed

/-- The bosses in the order of their indices, then their keys. -/
def byIndex (bossIndexByKey : Std.ExtTreeMap String UInt32) : List (UInt32 × String) :=
  (bossIndexByKey.toList.map Prod.swap).insertionSort
    fun a b => a.1 < b.1 ∨ a.1 = b.1 ∧ a.2 ≤ b.2

/-- `CompareReadback`. -/
def compareReadback (expected : LockoutExpectation) (observedEncounterCount : UInt32)
    (observedStates : List UInt8) (observedMask : UInt32) (observedSaveData : List UInt8) :
    ReadbackComparison :=
  let bosses := byIndex expected.bossIndexByKey
  let seeded (boss : UInt32 × String) := expected.bossesDone.contains boss.2
  let observed (boss : UInt32 × String) := observedStates[boss.1.toNat]? == some stateDone
  let extraDone := (bosses.filter fun boss => observed boss && !seeded boss).map Prod.snd
  let missingDone := (bosses.filter fun boss => !observed boss && seeded boss).map Prod.snd
  let lockoutIntact := observedEncounterCount == expected.encounterCount &&
    observedStates.length == expected.encounterCount.toNat && extraDone.isEmpty &&
      missingDone.isEmpty
  let statesEquivalent := statesEquivalentForSeed (expected.states.map UInt8.toUInt32)
    (observedStates.map UInt8.toUInt32)
  let maskMatches := observedMask == expected.completedEncounterMask
  let saveDataMatches := observedSaveData == expected.saveData
  let parse (data : List UInt8) :=
    parseSaveDataWritten data expected.scriptHeader expected.encounterCount expected.extraCount
  let saveDataEquivalent := saveDataMatches ||
    match parse expected.saveData, parse observedSaveData with
    | some (expectedWritten, expectedExtras), some (observedWritten, observedExtras) =>
      expectedExtras == observedExtras && statesEquivalentForSeed expectedWritten observedWritten
    | _, _ => false
  { extraDone, missingDone, lockoutIntact, statesEquivalent, maskMatches, saveDataMatches
    saveDataEquivalent
    seedMatch := lockoutIntact && statesEquivalent && maskMatches && saveDataEquivalent }

theorem seedMatch_eq_true_iff {expected : LockoutExpectation} {observedEncounterCount : UInt32}
    {observedStates : List UInt8} {observedMask : UInt32} {observedSaveData : List UInt8}
    {result : ReadbackComparison}
    (h : compareReadback expected observedEncounterCount observedStates observedMask
      observedSaveData = result) :
    result.seedMatch = true ↔ result.lockoutIntact = true ∧ result.statesEquivalent = true ∧
      result.maskMatches = true ∧ result.saveDataEquivalent = true := by
  subst h
  simp only [compareReadback, Bool.and_eq_true, and_assoc]

/-- The indices of the bosses on the difficulty. -/
def bossIndexByKeyOf (difficulty : UInt8) (bosses : List BossDefinition) :
    Std.ExtTreeMap String UInt32 :=
  bosses.foldl (fun indices boss =>
    if bossAvailableOn boss difficulty then indices.insert boss.key boss.bossIndex else indices) ∅

/-- The expectation of a seeded lockout: the record that seeding fills and `ExpectationOf`. -/
def expectationOf (d : RaidDefinition) (difficulty : UInt8) (plan : SeedPlan) :
    LockoutExpectation where
  scriptHeader := d.scriptHeader
  encounterCount := plan.encounterCount
  states := plan.bossStates
  bossesDone := plan.bossesDone
  bossIndexByKey := bossIndexByKeyOf difficulty d.bosses
  completedEncounterMask := plan.completedEncounterMask
  saveData := plan.saveData
  extraCount := plan.extraValues.length

/-! ### Faithful readbacks -/

/-- Every state is DONE where the plan is done, and untouched elsewhere. -/
structure FaithfulStates (plan : SeedPlan) (states : List UInt32) : Prop where
  length : states.length = plan.encounterCount.toNat
  done : ∀ index ∈ plan.bossIndicesDone, states[index.toNat]? = some stateDone.toUInt32
  untouched : ∀ i state, states[i]? = some state →
    (∀ index ∈ plan.bossIndicesDone, index.toNat ≠ i) → isUntouchedState state = true

/-- A readback that shows the lockout of the plan. -/
structure FaithfulReadback (d : RaidDefinition) (plan : SeedPlan) (encounterCount : UInt32)
    (states : List UInt8) (mask : UInt32) (saveData : List UInt8) : Prop where
  encounterCount : encounterCount = plan.encounterCount
  states : FaithfulStates plan (states.map UInt8.toUInt32)
  mask : mask = plan.completedEncounterMask
  saveData : saveData = plan.saveData ∨
    ∃ written, Written d.scriptHeader written (plan.extraValues.map fun extra => extra.2.toUInt8)
      saveData ∧ FaithfulStates plan written

/-- An expected and an observed state that are equivalent for a seed. -/
def SeedEquivalent (expected observed : UInt32) : Prop :=
  if expected = stateDone.toUInt32 then observed = stateDone.toUInt32
  else isUntouchedState observed = true ∧ isUntouchedState expected = true

theorem statesEquivalentForSeed_iff (expected observed : List UInt32) :
    statesEquivalentForSeed expected observed = true ↔
      List.Forall₂ SeedEquivalent expected observed := by
  rw [statesEquivalentForSeed]
  split
  · next hlength => simpa using fun h => hlength h.length_eq
  next hlength =>
  rw [not_not] at hlength
  induction expected generalizing observed with
  | nil =>
    have hobserved : observed = [] := length_eq_zero_iff.mp hlength.symm
    subst hobserved
    simp [statesEquivalentFrom]
  | cons state expected ih =>
    cases observed with
    | nil => cases hlength
    | cons seen observed =>
      rw [statesEquivalentFrom, forall₂_cons, ← ih observed (Nat.succ.inj hlength), SeedEquivalent]
      by_cases hdone : state = stateDone.toUInt32
      · simp [hdone]
      · simp [hdone]

variable {e : LockoutExpectation}

section

variable {d : RaidDefinition} {difficulty : UInt8} {bossKeys : List String} {plan : SeedPlan}

theorem not_isUntouchedState_done : isUntouchedState stateDone.toUInt32 = false := by decide

/-- The states of a plan are DONE at the done indices and untouched elsewhere. -/
theorem faithfulStates_plan (hplan : buildSeedPlan d difficulty bossKeys = .ok plan) :
    FaithfulStates plan (plan.bossStates.map UInt8.toUInt32) := by
  obtain ⟨_, _, _, _, hbuilt⟩ := buildSeedPlan_eq_ok_iff.mp hplan
  have h := hbuilt.plansExactly
  constructor
  · rw [length_map, h.length]
  · intro index hindex
    obtain ⟨boss, hboss, rfl⟩ := mem_map.mp (h.indices.mem_iff.mp hindex)
    have hlt := UInt32.lt_iff_toNat_lt.mp (h.index_lt boss hboss)
    rw [getElem?_map, h.state _ hlt, if_pos ⟨boss, hboss, rfl⟩, Option.map_some]
  · intro i state hstate huntouched
    rw [getElem?_map] at hstate
    have hlt : i < plan.encounterCount.toNat := by
      rw [← h.length]
      by_contra hge
      rw [getElem?_eq_none (not_lt.mp hge)] at hstate
      cases hstate
    have hnone : ¬ ∃ boss ∈ listedBosses d bossKeys, boss.bossIndex.toNat = i := by
      rintro ⟨boss, hboss, heq⟩
      exact huntouched _ (h.indices.mem_iff.mpr (mem_map_of_mem hboss)) heq
    rw [h.state i hlt, if_neg hnone, Option.map_some] at hstate
    cases hstate
    rcases (wellFormed_of_validateDefinition h.valid).initialBossState with heq | heq <;>
      rw [heq] <;> decide

theorem forall₂_iff_getElem? {α β : Type} {r : α → β → Prop} {l : List α} {l' : List β} :
    List.Forall₂ r l l' ↔
      l.length = l'.length ∧ ∀ (i : Nat) a b, l[i]? = some a → l'[i]? = some b → r a b := by
  rw [forall₂_iff_get]
  apply and_congr_right
  intro hlength
  constructor
  · intro h i a b ha hb
    obtain ⟨hi, rfl⟩ := List.getElem?_eq_some_iff.mp ha
    obtain ⟨hi', rfl⟩ := List.getElem?_eq_some_iff.mp hb
    exact h i hi hi'
  · intro h i hi hi'
    exact h i _ _ (getElem?_eq_getElem hi) (getElem?_eq_getElem hi')

theorem exists_getElem?_of_length_eq {α β : Type} {l : List α} {l' : List β}
    (h : l.length = l'.length) {i : Nat} {a : α} (ha : l[i]? = some a) :
    ∃ b, l'[i]? = some b := by
  obtain ⟨hi, -⟩ := List.getElem?_eq_some_iff.mp ha
  exact ⟨_, getElem?_eq_getElem (h ▸ hi)⟩

/-- States equivalent to faithful ones are the faithful ones. -/
theorem forall₂_seedEquivalent_iff {expected observed : List UInt32}
    (h : FaithfulStates plan expected) :
    List.Forall₂ SeedEquivalent expected observed ↔ FaithfulStates plan observed := by
  have hdone {i : Nat} {state : UInt32} (hstate : expected[i]? = some state)
      (huntouched : ∀ index ∈ plan.bossIndicesDone, index.toNat ≠ i) :
      state ≠ stateDone.toUInt32 := by
    rintro rfl
    exact Bool.false_ne_true (not_isUntouchedState_done.symm.trans (h.untouched i _ hstate huntouched))
  rw [forall₂_iff_getElem?]
  constructor
  · rintro ⟨hlength, hall⟩
    constructor
    · exact hlength.symm.trans h.length
    · intro index hindex
      have hstate := h.done index hindex
      obtain ⟨seen, hseen⟩ := exists_getElem?_of_length_eq hlength hstate
      have hequiv := hall index.toNat _ seen hstate hseen
      rw [SeedEquivalent, if_pos rfl] at hequiv
      rw [hseen, hequiv]
    · intro i state hstate huntouched
      obtain ⟨state', hstate'⟩ := exists_getElem?_of_length_eq hlength.symm hstate
      have hequiv := hall i state' state hstate' hstate
      rw [SeedEquivalent, if_neg (hdone hstate' huntouched)] at hequiv
      exact hequiv.1
  · intro h'
    refine ⟨h.length.trans h'.length.symm, ?_⟩
    intro i state seen hstate hseen
    rw [SeedEquivalent]
    by_cases hindex : ∃ index ∈ plan.bossIndicesDone, index.toNat = i
    · obtain ⟨index, hmem, rfl⟩ := hindex
      rw [if_pos (Option.some.inj (hstate.symm.trans (h.done index hmem)))]
      exact Option.some.inj (hseen.symm.trans (h'.done index hmem))
    · have huntouched : ∀ index ∈ plan.bossIndicesDone, index.toNat ≠ i :=
        fun index hmem heq => hindex ⟨index, hmem, heq⟩
      rw [if_neg (hdone hstate huntouched)]
      exact ⟨h'.untouched i seen hseen huntouched, h.untouched i state hstate huntouched⟩

/-- An expectation derived from a plan, with any bosses by index that are one for each index and
contain the done ones. -/
structure Expects (d : RaidDefinition) (bossKeys : List String) (plan : SeedPlan)
    (e : LockoutExpectation) : Prop where
  scriptHeader : e.scriptHeader = d.scriptHeader
  encounterCount : e.encounterCount = plan.encounterCount
  states : e.states = plan.bossStates
  bossesDone : e.bossesDone = plan.bossesDone
  completedEncounterMask : e.completedEncounterMask = plan.completedEncounterMask
  saveData : e.saveData = plan.saveData
  extraCount : e.extraCount = plan.extraValues.length
  listed : ∀ boss ∈ listedBosses d bossKeys, e.bossIndexByKey[boss.key]? = some boss.bossIndex
  onePerIndex : ∀ (key key' : String) (index : UInt32), e.bossIndexByKey[key]? = some index →
    e.bossIndexByKey[key']? = some index → key = key'

theorem bossIndexByKeyOf_append_singleton (difficulty : UInt8) (bosses : List BossDefinition)
    (last : BossDefinition) (key : String) :
    (bossIndexByKeyOf difficulty (bosses ++ [last]))[key]? =
      if bossAvailableOn last difficulty = true ∧ last.key = key then some last.bossIndex
      else (bossIndexByKeyOf difficulty bosses)[key]? := by
  rw [bossIndexByKeyOf, foldl_append, foldl_cons, foldl_nil, ← bossIndexByKeyOf]
  by_cases hon : bossAvailableOn last difficulty = true
  · simp only [hon, if_true, true_and, Std.ExtTreeMap.getElem?_insert,
      Std.LawfulEqOrd.compare_eq_iff_eq]
  · simp only [hon, Bool.false_eq_true, if_false, false_and]

/-- The map holds the bosses of the difficulty. -/
theorem bossIndexByKeyOf_eq_some_iff {bosses : List BossDefinition}
    (hnodup : (bosses.map BossDefinition.key).Nodup) (key : String) (index : UInt32) :
    (bossIndexByKeyOf difficulty bosses)[key]? = some index ↔
      ∃ boss ∈ bosses, bossAvailableOn boss difficulty = true ∧ boss.key = key ∧
        boss.bossIndex = index := by
  induction bosses using reverseRecOn with
  | nil => simp [bossIndexByKeyOf]
  | append_singleton rest last ih =>
    rw [map_append, nodup_append] at hnodup
    have hlast : last.key ∉ rest.map BossDefinition.key := fun hmem =>
      hnodup.2.2 last.key hmem last.key (by simp) rfl
    rw [bossIndexByKeyOf_append_singleton]
    simp only [mem_append, mem_singleton, or_and_right, exists_or, exists_eq_left]
    split
    · next h =>
      obtain ⟨hon, rfl⟩ := h
      constructor
      · intro heq
        exact .inr ⟨hon, rfl, Option.some.inj heq⟩
      · rintro (⟨boss, hboss, -, hkey, -⟩ | ⟨-, -, rfl⟩)
        · exact absurd (mem_map.mpr ⟨boss, hboss, hkey⟩) hlast
        · rfl
    · next h =>
      rw [ih hnodup.1]
      constructor
      · exact .inl
      · rintro (hold | ⟨hon, hkey, -⟩)
        · exact hold
        · exact absurd ⟨hon, hkey⟩ h

theorem expects_expectationOf (h : buildSeedPlan d difficulty bossKeys = .ok plan) :
    Expects d bossKeys plan (expectationOf d difficulty plan) := by
  obtain ⟨done, count, seeded, extras, hbuilt⟩ := buildSeedPlan_eq_ok_iff.mp h
  have hkeys := nodup_keys hbuilt.valid
  have hindexed := indexed_of_validateDefinition hbuilt.valid hbuilt.supported
  constructor
  case listed =>
    intro boss hboss
    obtain ⟨hmem, hon⟩ := hbuilt.available hboss
    exact (bossIndexByKeyOf_eq_some_iff hkeys ..).mpr ⟨boss, hmem, hon, rfl, rfl⟩
  case onePerIndex =>
    intro key key' index hkey hkey'
    obtain ⟨boss, hmem, hon, rfl, rfl⟩ := (bossIndexByKeyOf_eq_some_iff hkeys ..).mp hkey
    obtain ⟨boss', hmem', hon', rfl, heq⟩ := (bossIndexByKeyOf_eq_some_iff hkeys ..).mp hkey'
    rw [hindexed.inj boss hmem boss' hmem' hon hon' heq.symm]
  all_goals rfl

/-- A boss of an expectation is seeded exactly when its index is done. -/
theorem Expects.mem_bossesDone_iff (he : Expects d bossKeys plan e)
    (h : buildSeedPlan d difficulty bossKeys = .ok plan) {key : String} {index : UInt32}
    (hkey : e.bossIndexByKey[key]? = some index) :
    key ∈ plan.bossesDone ↔ index ∈ plan.bossIndicesDone := by
  obtain ⟨done, count, seeded, extras, hbuilt⟩ := buildSeedPlan_eq_ok_iff.mp h
  have hexact := hbuilt.plansExactly
  rw [hbuilt.bossesDone_perm.mem_iff, hexact.indices.mem_iff, mem_map]
  constructor
  · intro hmem
    obtain ⟨boss, hfind⟩ := hexact.known key hmem
    obtain ⟨-, rfl⟩ := key_of_findBoss hfind
    have hboss := mem_listedBosses.mpr ⟨hmem, hfind⟩
    exact ⟨boss, hboss, Option.some.inj ((he.listed boss hboss).symm.trans hkey)⟩
  · rintro ⟨boss, hboss, rfl⟩
    rw [he.onePerIndex key boss.key _ hkey (he.listed boss hboss)]
    exact (mem_listedBosses.mp hboss).1

/-- Faithful states show every boss as it was seeded. -/
theorem observed_eq_seeded (he : Expects d bossKeys plan e)
    (h : buildSeedPlan d difficulty bossKeys = .ok plan) {states : List UInt8}
    (hstates : FaithfulStates plan (states.map UInt8.toUInt32)) {boss : UInt32 × String}
    (hboss : boss ∈ byIndex e.bossIndexByKey) :
    (states[boss.1.toNat]? == some stateDone) = e.bossesDone.contains boss.2 := by
  obtain ⟨index, key⟩ := boss
  have hkey : e.bossIndexByKey[key]? = some index := by
    rw [byIndex, mem_insertionSort, mem_map] at hboss
    obtain ⟨entry, hmem, heq⟩ := hboss
    have hentry : entry = (key, index) := by rw [← Prod.swap_swap entry, heq, Prod.swap_prod_mk]
    rw [hentry] at hmem
    exact Std.ExtTreeMap.mem_toList_iff_getElem?_eq_some.mp hmem
  rw [Bool.eq_iff_iff, beq_iff_eq, contains_iff_mem, he.bossesDone, he.mem_bossesDone_iff h hkey]
  have hbyte (state : UInt8) : state.toUInt32 = stateDone.toUInt32 ↔ state = stateDone :=
    ⟨fun heq => by simpa using congrArg UInt32.toUInt8 heq, fun heq => by rw [heq]⟩
  constructor
  · intro hdone
    by_contra hnot
    have hstate : (states.map UInt8.toUInt32)[index.toNat]? = some stateDone.toUInt32 := by
      rw [getElem?_map, hdone, Option.map_some]
    have huntouched := hstates.untouched _ _ hstate fun other hother heq =>
      hnot (UInt32.toNat_inj.mp heq ▸ hother)
    exact Bool.false_ne_true (not_isUntouchedState_done.symm.trans huntouched)
  · intro hindex
    have hdone := hstates.done _ hindex
    rw [getElem?_map, Option.map_eq_some_iff] at hdone
    obtain ⟨state, hstate, heq⟩ := hdone
    rw [hstate, (hbyte state).mp heq]

/-- The save data of a plan says by position what it plans. -/
theorem parse_saveData (h : buildSeedPlan d difficulty bossKeys = .ok plan) :
    parseSaveDataWritten plan.saveData d.scriptHeader plan.encounterCount
      plan.extraValues.length = some (plan.bossStates.map UInt8.toUInt32,
        plan.extraValues.map fun extra => extra.2.toUInt8) := by
  have hplanned := planned_of_buildSeedPlan h
  have hparse := parseSaveDataWritten_buildSaveData d.scriptHeader plan.bossStates
    (d.saveExtras.map fun extra => (extra.encoding, seededValue d bossKeys extra)) hplanned.length
  rw [hplanned.saveData, hplanned.extraValues]
  simpa [extraBytes, Function.comp_def] using hparse

/-- Observed save data is accepted exactly when it is the planned bytes, or says by position what
a faithful readback says. -/
theorem saveDataEquivalent_iff (he : Expects d bossKeys plan e)
    (h : buildSeedPlan d difficulty bossKeys = .ok plan) (encounterCount : UInt32)
    (states : List UInt8) (mask : UInt32) (saveData : List UInt8) :
    (compareReadback e encounterCount states mask saveData).saveDataEquivalent = true ↔
      saveData = plan.saveData ∨
        ∃ written, Written d.scriptHeader written
          (plan.extraValues.map fun extra => extra.2.toUInt8) saveData ∧
            FaithfulStates plan written := by
  have hplan := faithfulStates_plan h
  have hparse := parse_saveData h
  simp only [compareReadback, he.scriptHeader, he.encounterCount, he.saveData, he.extraCount,
    hparse, Bool.or_eq_true, beq_iff_eq]
  apply or_congr_right
  constructor
  · intro hmatch
    split at hmatch
    · next expected extras written extras' hexpected hobserved =>
      cases hexpected
      rw [Bool.and_eq_true, beq_iff_eq, statesEquivalentForSeed_iff,
        forall₂_seedEquivalent_iff hplan] at hmatch
      obtain ⟨rfl, hwritten⟩ := hmatch
      exact ⟨written, ((parseSaveDataWritten_eq_some_iff ..).mp hobserved).2.2, hwritten⟩
    · cases hmatch
  · rintro ⟨written, hdata, hwritten⟩
    have hobserved := (parseSaveDataWritten_eq_some_iff saveData d.scriptHeader
      plan.encounterCount plan.extraValues.length written _).mpr
        ⟨hwritten.length, length_map _, hdata⟩
    simp only [hobserved, BEq.rfl, Bool.true_and]
    rw [statesEquivalentForSeed_iff, forall₂_seedEquivalent_iff hplan]
    exact hwritten

/-- A lockout with faithful states is intact. -/
theorem lockoutIntact_of_faithful (he : Expects d bossKeys plan e)
    (h : buildSeedPlan d difficulty bossKeys = .ok plan) {states : List UInt8}
    (hstates : FaithfulStates plan (states.map UInt8.toUInt32)) (mask : UInt32)
    (saveData : List UInt8) :
    (compareReadback e plan.encounterCount states mask saveData).lockoutIntact = true := by
  have hlength : states.length = plan.encounterCount.toNat := by
    rw [← hstates.length, length_map]
  simp only [compareReadback, he.encounterCount, hlength, BEq.rfl, Bool.true_and,
    Bool.and_eq_true, List.isEmpty_iff, map_eq_nil_iff, filter_eq_nil_iff]
  constructor
  · intro boss hboss
    rw [observed_eq_seeded he h hstates hboss]
    simp
  · intro boss hboss
    rw [observed_eq_seeded he h hstates hboss]
    simp

/-- For every expectation of a plan, the one `ExpectationOf` makes among them, a seed matches
exactly when the readback is faithful; and written save data is recovered. -/
theorem compareReadback_exact (h : buildSeedPlan d difficulty bossKeys = .ok plan) :
    Expects d bossKeys plan (expectationOf d difficulty plan) ∧
      (∀ e, Expects d bossKeys plan e → ∀ encounterCount states mask saveData,
        (compareReadback e encounterCount states mask saveData).seedMatch = true ↔
          FaithfulReadback d plan encounterCount states mask saveData) ∧
      ∀ header states extras (encounterCount : UInt32), states.length = encounterCount.toNat →
        parseSaveDataWritten (buildSaveData header states extras) header encounterCount
          extras.length = some (states.map UInt8.toUInt32, extraBytes extras) := by
  refine ⟨expects_expectationOf h, ?_, fun header states extras encounterCount hlength =>
    parseSaveDataWritten_buildSaveData header states extras hlength⟩
  intro e he encounterCount states mask saveData
  have hplan := faithfulStates_plan h
  have hdata := saveDataEquivalent_iff he h encounterCount states mask saveData
  have hequiv : (compareReadback e encounterCount states mask saveData).statesEquivalent = true ↔
      FaithfulStates plan (states.map UInt8.toUInt32) := by
    simp only [compareReadback, he.states]
    exact (statesEquivalentForSeed_iff _ _).trans (forall₂_seedEquivalent_iff hplan)
  rw [seedMatch_eq_true_iff rfl, hdata, hequiv]
  simp only [compareReadback, he.completedEncounterMask, beq_iff_eq]
  constructor
  · rintro ⟨hintact, hstates, hmask, hsave⟩
    have hcount : encounterCount = plan.encounterCount := by
      simp only [he.encounterCount, Bool.and_eq_true, beq_iff_eq] at hintact
      exact hintact.1.1.1
    exact ⟨hcount, hstates, hmask, hsave⟩
  · rintro ⟨rfl, hstates, rfl, hsave⟩
    exact ⟨lockoutIntact_of_faithful he h hstates plan.completedEncounterMask saveData, hstates,
      rfl, hsave⟩

end

theorem compareReadback_exact_introRaid :
    Expects introRaid ["atramedes", "magmaw"] introPlan (expectationOf introRaid 0 introPlan) ∧
      (∀ e, Expects introRaid ["atramedes", "magmaw"] introPlan e →
        ∀ encounterCount states mask saveData,
          (compareReadback e encounterCount states mask saveData).seedMatch = true ↔
            FaithfulReadback introRaid introPlan encounterCount states mask saveData) ∧
      ∀ header states extras (encounterCount : UInt32), states.length = encounterCount.toNat →
        parseSaveDataWritten (buildSaveData header states extras) header encounterCount
          extras.length = some (states.map UInt8.toUInt32, extraBytes extras) :=
  compareReadback_exact buildSeedPlan_introRaid

end TrinityCore.Bots.RaidLockout
