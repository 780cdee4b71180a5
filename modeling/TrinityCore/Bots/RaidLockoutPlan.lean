import Mathlib.Data.List.Sort
import Std.Data.ExtTreeSet.Lemmas
import TrinityCore.Lib.ByteStream

/-!
# Seeded raid lockouts

`BotRaidLockoutPlan.h`: the definition of a raid and its validation, the plan of a lockout in
which some bosses are done, the save data written for it and the reader of save data. Names,
keys and refusals are `String`s; the script header and the save data, which are read byte by
byte, are lists of bytes. No refusal is the empty text, so `""` is `none` here.
-/

namespace TrinityCore.Bots.RaidLockout

open ByteStream List

/-- `StateNotStarted`. -/
def stateNotStarted : UInt8 := 0

/-- `StateInProgress`. -/
def stateInProgress : UInt8 := 1

/-- `StateFail`. -/
def stateFail : UInt8 := 2

/-- `StateDone`. -/
def stateDone : UInt8 := 3

/-- `StateSpecial`. -/
def stateSpecial : UInt8 := 4

/-- `StateToBeDecided`. -/
def stateToBeDecided : UInt8 := 5

/-- `SchemaVersion`. -/
def schemaVersion : String := "raid_prerequisites_v1"

/-- `MaxRaidDifficulty`. -/
def maxRaidDifficulty : UInt8 := 4

/-- `MaxEncounterCount`. -/
def maxEncounterCount : UInt32 := 32

/-- `SaveExtraEncoding`. -/
inductive SaveExtraEncoding where
  | rawUint8
  deriving DecidableEq, Repr

/-- `SaveExtraDefinition`. -/
structure SaveExtraDefinition where
  name : String
  encoding : SaveExtraEncoding := .rawUint8
  default : UInt32 := 0
  deriving DecidableEq, Repr

/-- `BossDefinition`. -/
structure BossDefinition where
  key : String
  name : String := ""
  bossIndex : UInt32 := 0
  creatureEntry : UInt32 := 0
  creditEntry : UInt32 := 0
  dungeonEncounterId : UInt32 := 0
  dungeonEncounterIdByDifficulty : Std.ExtTreeMap UInt8 UInt32 := ∅
  dungeonEncounterBit : Int32 := -1
  predecessors : List String := []
  extraSaveValues : Std.ExtTreeMap String UInt32 := ∅
  deadDbSpawnEntriesKnown : Bool := false
  deadDbSpawnEntries : List UInt32 := []
  summonedEntries : List UInt32 := []
  /-- Empty means every raid difficulty. -/
  difficulties : List UInt8 := []

/-- `DoorReadback`. -/
structure DoorReadback where
  entry : UInt32 := 0
  openWhenDone : List String := []
  deriving DecidableEq, Repr

/-- `RaidDefinition`. -/
structure RaidDefinition where
  schema : String
  raid : String
  mapId : UInt32 := 0
  scriptName : String
  scriptHeader : List UInt8
  initialBossState : UInt8 := stateNotStarted
  difficulties : List UInt8 := []
  encounterCount : Std.ExtTreeMap UInt8 UInt32 := ∅
  bosses : List BossDefinition := []
  saveExtras : List SaveExtraDefinition := []
  readbackDoors : List DoorReadback := []

/-- `SeedPlan`. -/
structure SeedPlan where
  difficulty : UInt8 := 0
  encounterCount : UInt32 := 0
  bossStates : List UInt8 := []
  /-- In the order of boss indices, as are the indices. -/
  bossesDone : List String := []
  bossIndicesDone : List UInt32 := []
  completedEncounterMask : UInt32 := 0
  /-- In save order. -/
  extraValues : List (String × UInt32) := []
  saveData : List UInt8 := []
  deadDbSpawns : List (String × UInt32) := []
  summonedEntries : List (String × UInt32) := []
  deriving DecidableEq, Repr

/-- `DifficultyToken`. -/
def difficultyToken (difficulty : UInt8) : String :=
  if difficulty = 0 then "10n"
  else if difficulty = 1 then "25n"
  else if difficulty = 2 then "10h"
  else if difficulty = 3 then "25h"
  else ""

/-- A character of raid and boss keys. -/
def isKeyChar (c : Char) : Bool := c.isLower || c.isDigit || c == '_'

/-- `IsValidKey`. -/
def isValidKey (key : String) : Bool :=
  !key.isEmpty && decide (key.utf8ByteSize ≤ 64) && key.toList.all isKeyChar

variable (d : RaidDefinition)

/-- `FindBoss`. -/
def findBoss (key : String) : Option BossDefinition :=
  d.bosses.find? fun boss => boss.key == key

/-- `BossAvailableOn`. -/
def bossAvailableOn (boss : BossDefinition) (difficulty : UInt8) : Bool :=
  boss.difficulties.isEmpty || boss.difficulties.contains difficulty

/-! ### Predecessor cycles -/

/-- A colour of the depth-first search; a key without one is unvisited. -/
inductive Color where
  | onStack
  | finished
  deriving DecidableEq, Repr

/-- The colours of all keys. -/
abbrev Coloring := Std.ExtTreeMap String Color

/-- The loop of `visit` over predecessors, up to the first that finds a cycle. -/
def visitAll (visit : Coloring → String → Option (Coloring × Option String)) :
    Coloring → List String → Option (Coloring × Option String)
  | color, [] => some (color, none)
  | color, predecessor :: rest =>
    match visit color predecessor with
    | none => none
    | some (color, some cycleKey) => some (color, some cycleKey)
    | some (color, none) => visitAll visit color rest

/-- `visit`: the colours after the search from `key`, and the key of a cycle when it finds one.
The fuel bounds the depth of the recursion. -/
def visit (d : RaidDefinition) : Nat → Coloring → String → Option (Coloring × Option String)
  | 0, _, _ => none
  | fuel + 1, color, key =>
    match color[key]? with
    | some .onStack => some (color, some key)
    | some .finished => some (color, none)
    | none =>
      let color := color.insert key .onStack
      let predecessors := (findBoss d key).elim [] BossDefinition.predecessors
      match visitAll (visit d fuel) color predecessors with
      | none => none
      | some (color, some cycleKey) => some (color, some cycleKey)
      | some (color, none) => some (color.insert key .finished, none)

/-- The search from all bosses. A path has every boss once at most, and one more key. -/
def searchCycle : Option (Coloring × Option String) :=
  visitAll (visit d (d.bosses.length + 1)) ∅ (d.bosses.map BossDefinition.key)

/-- `HasPredecessorCycle`: the key of a cycle. -/
def hasPredecessorCycle : Option String := (searchCycle d).bind Prod.snd

/-- Every coloured key keeps a colour. -/
def Grows (color color' : Coloring) : Prop :=
  ∀ key : String, color'[key]? = none → color[key]? = none

theorem grows_insert (color : Coloring) (key : String) (value : Color) :
    Grows color (color.insert key value) := by
  intro key' h
  rw [Std.ExtTreeMap.getElem?_insert] at h
  split at h
  · cases h
  · exact h

/-- The bosses without a colour. -/
def unvisited (color : Coloring) : List BossDefinition :=
  d.bosses.filter fun boss => color[boss.key]?.isNone

variable (d : RaidDefinition)

theorem length_unvisited_le {color color' : Coloring} (h : Grows color color') :
    (unvisited d color').length ≤ (unvisited d color).length := by
  apply List.Sublist.length_le
  apply monotone_filter_right
  intro boss hboss
  rw [Option.isNone_iff_eq_none] at hboss ⊢
  exact h boss.key hboss

theorem length_unvisited_insert_lt {color : Coloring} {key : String} (hkey : color[key]? = none)
    {boss : BossDefinition} (hboss : findBoss d key = some boss) (value : Color) :
    (unvisited d (color.insert key value)).length < (unvisited d color).length := by
  have hmem : boss ∈ d.bosses := mem_of_find?_eq_some hboss
  have hname : boss.key = key := by simpa using find?_some hboss
  have hsub : (unvisited d (color.insert key value)).Sublist (unvisited d color) := by
    apply monotone_filter_right
    intro other hother
    rw [Option.isNone_iff_eq_none] at hother ⊢
    exact grows_insert color key value other.key hother
  apply lt_of_le_of_ne hsub.length_le
  intro heq
  have hin : boss ∈ unvisited d color := mem_filter.mpr ⟨hmem, by simp [hname, hkey]⟩
  rw [← hsub.eq_of_length heq] at hin
  simpa [hname] using (mem_filter.mp hin).2

theorem visitAll_total {search : Coloring → String → Option (Coloring × Option String)}
    {inv : Coloring → Prop}
    (hsearch : ∀ color key, inv color → ∃ r, search color key = some r ∧ inv r.1)
    {color : Coloring} (hinv : inv color) (keys : List String) :
    ∃ r, visitAll search color keys = some r ∧ inv r.1 := by
  induction keys generalizing color with
  | nil => exact ⟨_, rfl, hinv⟩
  | cons key rest ih =>
    obtain ⟨⟨color', found⟩, heq, hinv'⟩ := hsearch color key hinv
    cases found with
    | some cycleKey => exact ⟨(color', some cycleKey), by simp [visitAll, heq], hinv'⟩
    | none =>
      obtain ⟨r, hr, hr'⟩ := ih hinv'
      exact ⟨r, by simp [visitAll, heq, hr], hr'⟩

/-- Fuel for every boss without a colour is enough. -/
theorem visit_total (fuel : Nat) (color : Coloring) (key : String)
    (h : (unvisited d color).length < fuel) :
    ∃ r, visit d fuel color key = some r ∧ Grows color r.1 := by
  induction fuel generalizing color key with
  | zero => exact absurd h (Nat.not_lt_zero _)
  | succ fuel ih =>
    cases hkey : color[key]? with
    | some mark => cases mark <;> exact ⟨_, by simp [visit, hkey]; rfl, fun _ h => h⟩
    | none =>
      have hgrows := grows_insert color key .onStack
      have hall : ∃ r, visitAll (visit d fuel) (color.insert key .onStack)
          ((findBoss d key).elim [] BossDefinition.predecessors) = some r ∧ Grows color r.1 := by
        cases hboss : findBoss d key with
        | none => exact ⟨_, rfl, hgrows⟩
        | some boss =>
          have hless := length_unvisited_insert_lt d hkey hboss .onStack
          have hsearch (color' : Coloring) (key' : String)
              (hinv : Grows (color.insert key .onStack) color') :
              ∃ r, visit d fuel color' key' = some r ∧
                Grows (color.insert key .onStack) r.1 := by
            have hle := length_unvisited_le d hinv
            obtain ⟨r, hr, hr'⟩ := ih color' key' (by omega)
            exact ⟨r, hr, fun k hk => hinv k (hr' k hk)⟩
          obtain ⟨r, hr, hr'⟩ := visitAll_total hsearch (fun _ h => h) boss.predecessors
          exact ⟨r, hr, fun k hk => hgrows k (hr' k hk)⟩
      obtain ⟨⟨color', found⟩, heq, hinv⟩ := hall
      cases found with
      | some cycleKey => exact ⟨(color', some cycleKey), by simp [visit, hkey, heq], hinv⟩
      | none =>
        refine ⟨(color'.insert key .finished, none), by simp [visit, hkey, heq], ?_⟩
        intro k hk
        exact hinv k (grows_insert color' key .finished k hk)

/-- The search for cycles ends. -/
theorem searchCycle_total : ∃ r, searchCycle d = some r := by
  have hsearch (color : Coloring) (key : String) (_ : True) :
      ∃ r, visit d (d.bosses.length + 1) color key = some r ∧ True := by
    have hle : (unvisited d color).length ≤ d.bosses.length := length_filter_le _ _
    obtain ⟨r, hr, -⟩ := visit_total d (d.bosses.length + 1) color key (by omega)
    exact ⟨r, hr, trivial⟩
  obtain ⟨r, hr, -⟩ := visitAll_total hsearch trivial (d.bosses.map BossDefinition.key)
  exact ⟨r, hr⟩

/-! ### Validation -/

/-- `RawByteRoundTrips`. -/
def rawByteRoundTrips (value : UInt32) : Bool :=
  decide (value ≤ 255) && !(value == 32 || (decide (9 ≤ value) && decide (value ≤ 13)))

/-- A loop that inserts a key of every item into a set: `check` is told whether the key was in
the set already, and the first refusal ends the loop. -/
def checkDistinct {α κ : Type} [DecidableEq κ] (key : α → κ) (check : Bool → α → Option String) :
    List κ → List α → Option String
  | _, [] => none
  | seen, a :: rest =>
    (check (decide (key a ∈ seen)) a).or (checkDistinct key check (key a :: seen) rest)

/-- The checks of `ValidateDefinition` that read single fields. -/
def checkFields : Option String :=
  if d.schema ≠ schemaVersion then some "schema_mismatch"
  else if !isValidKey d.raid then some "invalid_raid_key"
  else if d.mapId = 0 then some "invalid_map_id"
  else if d.scriptName.isEmpty then some "script_name_required"
  else if !d.scriptHeader.any isAlpha then some "script_header_required"
  else if d.initialBossState ≠ stateNotStarted ∧ d.initialBossState ≠ stateToBeDecided then
    some "invalid_initial_boss_state"
  else none

/-- The checks of difficulties and encounter counts. -/
def checkDifficulties : Option String :=
  if d.difficulties.isEmpty then some "difficulties_required"
  else
    (checkDistinct id
      (fun repeated difficulty =>
        if difficulty ≥ maxRaidDifficulty ∨ repeated then some "invalid_difficulty" else none)
      [] d.difficulties).or
    (if d.encounterCount.size ≠ d.difficulties.length then
      some "encounter_count_difficulty_mismatch"
    else
      d.encounterCount.toList.findSome? fun (difficulty, count) =>
        if difficulty ∉ d.difficulties ∨ count = 0 ∨ count > maxEncounterCount then
          some "invalid_encounter_count"
        else none)

/-- The check of one save extra. -/
def checkSaveExtra (repeated : Bool) (extra : SaveExtraDefinition) : Option String :=
  if !isValidKey extra.name || repeated then some ("invalid_save_extra:" ++ extra.name)
  else if extra.encoding = .rawUint8 ∧ extra.default > 255 then
    some ("invalid_save_extra_default:" ++ extra.name)
  else none

/-- The check of one boss key. -/
def checkBossKey (repeated : Bool) (boss : BossDefinition) : Option String :=
  if !isValidKey boss.key || repeated then some ("invalid_boss_key:" ++ boss.key) else none

/-- The check of one boss index among `count` encounters. -/
def checkBossIndex (count : UInt32) (repeated : Bool) (boss : BossDefinition) : Option String :=
  if boss.bossIndex ≥ count then some ("boss_index_out_of_range:" ++ boss.key)
  else if repeated then some ("duplicate_boss_index:" ++ boss.key)
  else none

/-- The boss indices of one difficulty are exactly those of its encounters. -/
def checkBossIndices (difficulty : UInt8) : Option String :=
  -- every difficulty has its count at this point
  let count := d.encounterCount.getD difficulty 0
  let available := d.bosses.filter fun boss => bossAvailableOn boss difficulty
  (checkDistinct BossDefinition.bossIndex (checkBossIndex count) [] available).or
    ((range count.toNat).findSome? fun index =>
      if available.any fun boss => boss.bossIndex.toNat == index then none
      else some ("missing_boss_index:" ++ toString index ++ ":" ++ difficultyToken difficulty))

/-- The check of one predecessor of a boss. -/
def checkPredecessor (boss : BossDefinition) (repeated : Bool)
    (predecessor : String) : Option String :=
  match findBoss d predecessor with
  | none => some ("invalid_predecessor:" ++ boss.key ++ ":" ++ predecessor)
  | some other =>
    if predecessor = boss.key ∨ repeated then
      some ("invalid_predecessor:" ++ boss.key ++ ":" ++ predecessor)
    else
      d.difficulties.findSome? fun difficulty =>
        if bossAvailableOn boss difficulty ∧ ¬ bossAvailableOn other difficulty then
          some ("predecessor_unavailable:" ++ boss.key ++ ":" ++ predecessor)
        else none

/-- The check of one value a boss leaves in a save extra. -/
def checkExtraSaveValue (boss : BossDefinition) (entry : String × UInt32) : Option String :=
  if entry.1 ∉ d.saveExtras.map SaveExtraDefinition.name then
    some ("unknown_extra_save_value:" ++ boss.key ++ ":" ++ entry.1)
  else if !rawByteRoundTrips entry.2 then
    some ("extra_save_value_not_round_trip:" ++ boss.key ++ ":" ++ entry.1)
  else none

/-- The checks of one boss. -/
def checkBoss (boss : BossDefinition) : Option String :=
  (boss.difficulties.findSome? fun difficulty =>
    if difficulty ∉ d.difficulties then some ("boss_difficulty_not_in_raid:" ++ boss.key)
    else none).or <|
  (boss.dungeonEncounterIdByDifficulty.toList.findSome? fun (difficulty, encounterId) =>
    if difficulty ∉ d.difficulties ∨ encounterId = 0 then
      some ("invalid_dungeon_encounter_id:" ++ boss.key)
    else none).or <|
  (if boss.dungeonEncounterBit < -1 ∨ boss.dungeonEncounterBit ≥ 32 then
    some ("invalid_dungeon_encounter_bit:" ++ boss.key)
  else none).or <|
  (checkDistinct id (checkPredecessor d boss) [] boss.predecessors).or <|
  (boss.extraSaveValues.toList.findSome? (checkExtraSaveValue d boss)).or <|
  (if boss.deadDbSpawnEntries.contains 0 then
    some ("invalid_dead_db_spawn_entry:" ++ boss.key)
  else none).or <|
  if boss.summonedEntries.contains 0 then some ("invalid_summoned_entry:" ++ boss.key) else none

/-- An entry is either left dead as a spawn or kept away as a summon. -/
def checkSummonedEntries : Option String :=
  let deadEntries := d.bosses.flatMap BossDefinition.deadDbSpawnEntries
  (d.bosses.flatMap BossDefinition.summonedEntries).findSome? fun entry =>
    if entry ∈ deadEntries then some ("entry_both_dead_spawn_and_summoned:" ++ toString entry)
    else none

/-- The check of one readback door. -/
def checkDoor (door : DoorReadback) : Option String :=
  if door.entry = 0 ∨ door.openWhenDone.isEmpty then some "invalid_readback_door"
  else
    door.openWhenDone.findSome? fun key =>
      if key ∉ d.bosses.map BossDefinition.key then some ("invalid_readback_door_boss:" ++ key)
      else none

/-- `ValidateDefinition`: the first refusal. -/
def validateDefinition : Option String :=
  (checkFields d).or <|
  (checkDifficulties d).or <|
  (checkDistinct SaveExtraDefinition.name checkSaveExtra [] d.saveExtras).or <|
  (checkDistinct BossDefinition.key checkBossKey [] d.bosses).or <|
  (d.difficulties.findSome? (checkBossIndices d)).or <|
  (d.bosses.findSome? (checkBoss d)).or <|
  (checkSummonedEntries d).or <|
  ((hasPredecessorCycle d).map fun cycleKey => "predecessor_cycle:" ++ cycleKey).or <|
  d.readbackDoors.findSome? (checkDoor d)

/-! ### Save data -/

/-- The letters of a header, each with a space. -/
def writeHeader (header : List UInt8) : List UInt8 :=
  (header.filter isAlpha).flatMap fun c => [c, 32]

/-- The states as integers, each with a space. -/
def writeStates (states : List UInt8) : List UInt8 :=
  states.flatMap fun state => decimal state.toNat ++ [32]

/-- The extras as raw bytes, without separators. -/
def writeExtras (extras : List (SaveExtraEncoding × UInt32)) : List UInt8 :=
  extras.flatMap fun
    | (.rawUint8, value) => [value.toUInt8]

/-- `BuildSaveData`. -/
def buildSaveData (header states : List UInt8) (extras : List (SaveExtraEncoding × UInt32)) :
    List UInt8 :=
  writeHeader header ++ writeStates states ++ writeExtras extras

/-- The header loop of `ParseSaveData`: what is left of the stream. -/
def readHeader : List UInt8 → List UInt8 → Option (List UInt8)
  | [], stream => some stream
  | header :: rest, stream =>
    if !isAlpha header then readHeader rest stream
    else
      match readChar stream with
      | none => none
      | some (observed, stream) => if observed ≠ header then none else readHeader rest stream

/-- The state a number loads as. -/
def loadState (value : UInt32) : UInt8 :=
  let value :=
    if value = stateInProgress.toUInt32 ∨ value = stateFail.toUInt32 ∨
      value = stateSpecial.toUInt32 then stateNotStarted.toUInt32
    else value
  if value < stateToBeDecided.toUInt32 then value.toUInt8 else stateToBeDecided

/-- The state loop of `ParseSaveData`: the states and what is left of the stream. -/
def readStates : Nat → List UInt8 → Option (List UInt8 × List UInt8)
  | 0, stream => some ([], stream)
  | count + 1, stream =>
    match readUInt32 stream with
    | none => none
    | some (value, stream) =>
      match readStates count stream with
      | none => none
      | some (states, stream) => some (loadState value :: states, stream)

/-- The extras loop of `ParseSaveData`; a stream that failed stays failed. -/
def readExtras : List SaveExtraDefinition → Option (List UInt8) → List (String × UInt32)
  | [], _ => []
  | extra :: rest, stream =>
    match stream.bind readChar with
    | none => (extra.name, extra.default) :: readExtras rest none
    | some (raw, stream) => (extra.name, raw.toUInt32) :: readExtras rest (some stream)

/-- `ParseSaveData`: the states and extras, or a header or state error. -/
def parseSaveData (data : List UInt8) (d : RaidDefinition) (encounterCount : UInt32) :
    Option (List UInt8 × List (String × UInt32)) :=
  match readHeader d.scriptHeader (cString data) with
  | none => none
  | some stream =>
    match readStates encounterCount.toNat stream with
    | none => none
    | some (states, stream) => some (states, readExtras d.saveExtras (some stream))

/-! ### The seed plan -/

/-- The loop of `BuildSeedPlan` over the requested keys. -/
def collectDone (d : RaidDefinition) (difficulty : UInt8) :
    List String → Std.ExtTreeSet String → Except String (Std.ExtTreeSet String)
  | [], done => .ok done
  | key :: rest, done =>
    match findBoss d key with
    | none => .error ("unknown_boss:" ++ key)
    | some boss =>
      if !bossAvailableOn boss difficulty then
        .error ("boss_not_available_on_difficulty:" ++ key)
      else if done.contains key then .error ("duplicate_boss:" ++ key)
      else collectDone d difficulty rest (done.insert key)

/-- The values of the save extras, and the boss that set each. -/
structure ExtraState where
  extraValues : Std.ExtTreeMap String UInt32 := ∅
  extraOwner : Std.ExtTreeMap String String := ∅

/-- One round of the loop over the values a boss leaves. -/
def seedExtra (bossKey : String) (s : ExtraState) (entry : String × UInt32) :
    Except String ExtraState :=
  if s.extraOwner.contains entry.1 ∧ s.extraValues.getD entry.1 0 ≠ entry.2 then
    .error ("extra_save_value_conflict:" ++ entry.1)
  else
    .ok { extraValues := s.extraValues.insert entry.1 entry.2
          extraOwner := s.extraOwner.insert entry.1 bossKey }

/-- What a boss adds to the plan besides extras. -/
def SeedPlan.addDone (plan : SeedPlan) (boss : BossDefinition) : SeedPlan :=
  { plan with
    bossStates := plan.bossStates.set boss.bossIndex.toNat stateDone
    bossesDone := plan.bossesDone ++ [boss.key]
    bossIndicesDone := plan.bossIndicesDone ++ [boss.bossIndex]
    completedEncounterMask :=
      plan.completedEncounterMask ||| (1 <<< boss.dungeonEncounterBit.toUInt32)
    deadDbSpawns := plan.deadDbSpawns ++ boss.deadDbSpawnEntries.map (boss.key, ·)
    summonedEntries := plan.summonedEntries ++ boss.summonedEntries.map (boss.key, ·) }

/-- One round of the loop over the done bosses in the order of their indices. -/
def seedBoss (done : Std.ExtTreeSet String) (s : SeedPlan × ExtraState) (boss : BossDefinition) :
    Except String (SeedPlan × ExtraState) :=
  match boss.predecessors.find? fun predecessor => !done.contains predecessor with
  | some predecessor =>
    .error ("bosses_done_not_predecessor_closed:" ++ boss.key ++ ":" ++ predecessor)
  | none =>
    if boss.dungeonEncounterBit < 0 then .error ("boss_encounter_bit_unknown:" ++ boss.key)
    else if !boss.deadDbSpawnEntriesKnown then
      .error ("boss_dead_spawns_unverified:" ++ boss.key)
    else
      match boss.extraSaveValues.toList.foldlM (seedExtra boss.key) s.2 with
      | .error failure => .error failure
      | .ok extras => .ok (s.1.addDone boss, extras)

/-- The done bosses in the order of their indices, which differ on a difficulty. -/
def orderedBosses (done : Std.ExtTreeSet String) : List BossDefinition :=
  (done.toList.filterMap (findBoss d)).insertionSort fun a b => a.bossIndex ≤ b.bossIndex

/-- The default of every save extra. -/
def defaultExtras (extras : List SaveExtraDefinition) : Std.ExtTreeMap String UInt32 :=
  extras.foldl (fun values extra => values.insert extra.name extra.default) ∅

/-- `BuildSeedPlan`: the plan, or the refusal. -/
def buildSeedPlan (difficulty : UInt8) (bossKeys : List String) : Except String SeedPlan :=
  match validateDefinition d with
  | some invalid => .error ("invalid_definition:" ++ invalid)
  | none =>
    match d.encounterCount[difficulty]? with
    | none => .error ("difficulty_not_supported:" ++ difficultyToken difficulty)
    | some count =>
      match collectDone d difficulty bossKeys ∅ with
      | .error failure => .error failure
      | .ok done =>
        let plan : SeedPlan :=
          { difficulty := difficulty
            encounterCount := count
            bossStates := replicate count.toNat d.initialBossState }
        let extras : ExtraState := { extraValues := defaultExtras d.saveExtras }
        match (orderedBosses d done).foldlM (seedBoss done) (plan, extras) with
        | .error failure => .error failure
        | .ok (plan, extras) =>
          let value (extra : SaveExtraDefinition) := extras.extraValues.getD extra.name 0
          .ok { plan with
            extraValues := d.saveExtras.map fun extra => (extra.name, value extra)
            saveData := buildSaveData d.scriptHeader plan.bossStates
              (d.saveExtras.map fun extra => (extra.encoding, value extra)) }

end TrinityCore.Bots.RaidLockout
