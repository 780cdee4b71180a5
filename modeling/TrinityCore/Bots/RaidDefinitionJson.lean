import TrinityCore.Bots.RaidLockoutPlan
import TrinityCore.Lib.JsonText
import TrinityCore.Lib.Readers

/-!
# Raid definitions in JSON

`BotRaidLockoutDefinitionJson.h`, over the values rapidjson parses. A text that is read becomes
a `String` with one character for each byte. Of two documents that are accepted, one definition
comes from both exactly when they agree on all that is read.
-/

namespace TrinityCore.Bots.RaidLockout

open List Option

/-- A number of a document. -/
inductive Number where
  /-- `IsUint`. -/
  | uint (value : UInt32)
  /-- Any other, as it is spelled. -/
  | other (text : List UInt8)

/-- `rapidjson::Value`. -/
abbrev Value := JsonValue Number

/-- The members of an object. -/
abbrev Object := List (List UInt8 × Value)

/-- The `std::string` of these bytes. -/
def textOf (bytes : List UInt8) : String := String.ofList (bytes.map Char.ofUInt8)

/-- `FindMember`. -/
def findMember (object : Object) (name : String) : Option Value :=
  (object.find? fun member => textOf member.1 == name).map Prod.snd

/-- `IsObject`, and the members. -/
def asObject : Value → Option Object
  | .object members => some members
  | _ => none

/-- `IsArray`, and the items. -/
def asArray : Value → Option (List Value)
  | .array items => some items
  | _ => none

/-- `IsString`, and the text. -/
def asString : Value → Option (List UInt8)
  | .string text => some text
  | _ => none

/-- `IsUint`, and the number. -/
def asUInt : Value → Option UInt32
  | .number (.uint value) => some value
  | _ => none

/-- Null, or what is read. -/
def orNull {α : Type} (read : Value → Option α) : Value → Option (Option α)
  | .null => some none
  | value => (read value).map some

/-- `ReadUInt`: `none` is null, which leaves the number as it was. -/
def readUInt (object : Object) (name : String) (nullable : Bool) : Option (Option UInt32) :=
  (findMember object name).bind
    (if nullable then orNull asUInt else fun value => (asUInt value).map some)

/-- `ReadString`. -/
def readString (object : Object) (name : String) : Option (List UInt8) :=
  (findMember object name).bind asString

variable (value : Value)

/-- `ReadStringArray`. -/
def readStringArray : Option (List String) :=
  (asArray value).bind (List.mapM fun item => (asString item).map textOf)

/-- `ReadUIntArray`. -/
def readUIntArray : Option (List UInt32) := (asArray value).bind (List.mapM asUInt)

/-- `ParseDifficulty`. -/
def parseDifficulty (token : String) : Option UInt8 :=
  [("10n", 0), ("25n", 1), ("10h", 2), ("25h", 3), ("0", 0), ("1", 1), ("2", 2), ("3", 3)].lookup
    (token.map Char.toLower)

/-- A difficulty under its own token. -/
def readDifficulty (token : String) : Option UInt8 :=
  (parseDifficulty token).filter fun difficulty => difficultyToken difficulty == token

/-- `ReadDifficultyArray`. -/
def readDifficultyArray : Option (List UInt8) :=
  (readStringArray value).bind (List.mapM readDifficulty)

/-- A member whose value is a number. -/
def readEntry {κ : Type} (readKey : String → Option κ) (member : List UInt8 × Value) :
    Option (κ × UInt32) := do
  let key ← readKey (textOf member.1)
  let value ← asUInt member.2
  return (key, value)

/-- The loops that fill a `std::map` of numbers with the members of an object. -/
def readMap {κ : Type} [Ord κ] [Std.TransOrd κ] (readKey : String → Option κ) (object : Object) :
    Option (Std.ExtTreeMap κ UInt32) :=
  (object.mapM (readEntry readKey)).map (Std.ExtTreeMap.ofList ·)

/-- A reader that returns false leaves its failure. -/
def orFail {α : Type} (failure : String) : Option α → Except String α
  | some value => .ok value
  | none => .error failure

/-- The number an encounter bit is kept as. -/
def encounterBit (bit : Option UInt32) : Int32 := bit.elim (-1) UInt32.toInt32

/-- `ReadBoss`. -/
def readBoss : Except String BossDefinition := do
  let boss ← orFail "boss_key_required" (asObject value)
  let key ← orFail "boss_key_required" (readString boss "key")
  let context := ":" ++ textOf key
  let bossIndex ← orFail ("boss_index_required" ++ context) (readUInt boss "boss_index" false)
  let creatureEntry ← orFail ("creature_entry_required" ++ context)
    (readUInt boss "creature_entry" true)
  let creditEntry ← orFail ("credit_entry_required" ++ context) (readUInt boss "credit_entry" true)
  let bit ← orFail ("dungeon_encounter_bit_required" ++ context)
    (readUInt boss "dungeon_encounter_bit" true)
  let encounterId ← orFail ("dungeon_encounter_id_required" ++ context)
    (readUInt boss "dungeon_encounter_id" true)
  let byDifficulty ← orFail ("invalid_dungeon_encounter_id_by_difficulty" ++ context)
    ((findMember boss "dungeon_encounter_id_by_difficulty").elim (some ∅) fun value =>
      (asObject value).bind (readMap readDifficulty))
  let predecessors ← orFail ("predecessors_required" ++ context)
    ((findMember boss "predecessors").bind readStringArray)
  let extras ← orFail ("extra_save_values_required" ++ context)
    ((findMember boss "extra_save_values").bind asObject)
  let extraSaveValues ← orFail ("invalid_extra_save_value" ++ context) (readMap some extras)
  let dead ← orFail ("dead_db_spawn_entries_required" ++ context)
    (findMember boss "dead_db_spawn_entries")
  let deadEntries ← orFail ("invalid_dead_db_spawn_entries" ++ context) (orNull readUIntArray dead)
  let summoned ← orFail ("summoned_entries_required" ++ context)
    ((findMember boss "summoned_entries").bind readUIntArray)
  let difficulties ← orFail ("invalid_boss_difficulties" ++ context)
    ((findMember boss "difficulties").elim (some []) readDifficultyArray)
  return {
    key := textOf key
    name := textOf ((readString boss "name").getD [])
    bossIndex := bossIndex.getD 0
    creatureEntry := creatureEntry.getD 0
    creditEntry := creditEntry.getD 0
    dungeonEncounterId := encounterId.getD 0
    dungeonEncounterIdByDifficulty := byDifficulty
    dungeonEncounterBit := encounterBit bit
    predecessors := predecessors
    extraSaveValues := extraSaveValues
    deadDbSpawnEntriesKnown := deadEntries.isSome
    deadDbSpawnEntries := deadEntries.getD []
    summonedEntries := summoned
    difficulties := difficulties }

/-- The loop over save extras. -/
def readSaveExtra : Option SaveExtraDefinition := do
  let extra ← asObject value
  let name ← readString extra "name"
  let _ ← (readString extra "encoding").filter (textOf · == "raw_uint8")
  let default ← readUInt extra "default" false
  return { name := textOf name, default := default.getD 0 }

/-- The loop over readback doors. -/
def readDoor : Option DoorReadback := do
  let door ← asObject value
  let entry ← readUInt door "entry" false
  let openWhenDone ← (findMember door "open_when_done").bind readStringArray
  return { entry := entry.getD 0, openWhenDone }

/-- The two initial states. -/
def readInitialState (text : List UInt8) : Option UInt8 :=
  if textOf text = "to_be_decided" then some stateToBeDecided
  else if textOf text = "not_started" then some stateNotStarted
  else none

/-- `ParseRaidDefinitionJson`, of a text that parses. -/
def parseRaidDefinitionJson (document : Value) : Except String RaidDefinition := do
  let document ← orFail "json_parse_error" (asObject document)
  let schema ← orFail "raid_identity_required" (readString document "schema")
  let raid ← orFail "raid_identity_required" (readString document "raid")
  let mapId ← orFail "raid_identity_required" (readUInt document "map_id" false)
  let scriptName ← orFail "raid_identity_required" (readString document "script_name")
  let scriptHeader ← orFail "raid_identity_required" (readString document "script_header")
  let initialBossState ← orFail "invalid_initial_boss_state"
    ((readString document "initial_boss_state").bind readInitialState)
  let difficulties ← orFail "invalid_difficulties"
    ((findMember document "difficulties").bind readDifficultyArray)
  let counts ← orFail "encounter_count_required"
    ((findMember document "encounter_count").bind asObject)
  let encounterCount ← orFail "invalid_encounter_count" (readMap readDifficulty counts)
  let bosses ← orFail "bosses_required"
    (((findMember document "bosses").bind asArray).filter (!·.isEmpty))
  let bosses ← bosses.mapM readBoss
  let extras ← orFail "save_extras_required" ((findMember document "save_extras").bind asArray)
  let saveExtras ← orFail "invalid_save_extra" (extras.mapM readSaveExtra)
  let doors ← orFail "invalid_readback_doors"
    ((findMember document "readback_doors").elim (some []) asArray)
  let readbackDoors ← orFail "invalid_readback_doors" (doors.mapM readDoor)
  let definition := {
    schema := textOf schema
    raid := textOf raid
    mapId := mapId.getD 0
    scriptName := textOf scriptName
    scriptHeader
    initialBossState
    difficulties
    encounterCount
    bosses
    saveExtras
    readbackDoors }
  match validateDefinition definition with
  | none => pure definition
  | some failure => throw failure

/-! ### What is read -/

/-- The items of an array that may be absent. -/
def itemsOf (value : Option Value) : List Value := (value.bind asArray).getD []

/-- The members of an object that may be absent. -/
def membersOf (value : Option Value) : Object := (value.bind asObject).getD []

/-- The members of a value. -/
abbrev objectOf (value : Value) : Object := membersOf (some value)

/-- Null is the entry or id 0. -/
def idOf (value : Option Value) : Option Value :=
  value.map fun
    | .null => .number (.uint 0)
    | value => value

/-- Two objects agree on these keys. -/
def AgreeAt (keys : List String) (d e : Object) : Prop :=
  ∀ key ∈ keys, findMember d key = findMember e key

/-- Two objects have the same members in the object under this key. -/
def SameMembers (key : String) (d e : Object) : Prop :=
  ∀ member, member ∈ membersOf (findMember d key) ↔ member ∈ membersOf (findMember e key)

/-- Two bosses agree on what is read. -/
structure AgreeBoss (d e : Value) : Prop where
  keys : AgreeAt ["key", "boss_index", "dungeon_encounter_bit", "predecessors",
    "dead_db_spawn_entries", "summoned_entries"] (objectOf d) (objectOf e)
  ids : ∀ key ∈ ["creature_entry", "credit_entry", "dungeon_encounter_id"],
    idOf (findMember (objectOf d) key) = idOf (findMember (objectOf e) key)
  byDifficulty : SameMembers "dungeon_encounter_id_by_difficulty" (objectOf d) (objectOf e)
  extraSaveValues : SameMembers "extra_save_values" (objectOf d) (objectOf e)
  difficulties : itemsOf (findMember (objectOf d) "difficulties") =
    itemsOf (findMember (objectOf e) "difficulties")
  name : (readString (objectOf d) "name").getD [] = (readString (objectOf e) "name").getD []

/-- Two documents agree on what is read. -/
structure AgreeDocument (d e : Value) : Prop where
  keys : AgreeAt ["schema", "raid", "map_id", "script_name", "script_header",
    "initial_boss_state", "difficulties"] (objectOf d) (objectOf e)
  encounterCount : SameMembers "encounter_count" (objectOf d) (objectOf e)
  bosses : List.Forall₂ AgreeBoss (itemsOf (findMember (objectOf d) "bosses"))
    (itemsOf (findMember (objectOf e) "bosses"))
  saveExtras : List.Forall₂
    (fun d e => AgreeAt ["name", "encoding", "default"] (objectOf d) (objectOf e))
    (itemsOf (findMember (objectOf d) "save_extras"))
    (itemsOf (findMember (objectOf e) "save_extras"))
  readbackDoors : List.Forall₂
    (fun d e => AgreeAt ["entry", "open_when_done"] (objectOf d) (objectOf e))
    (itemsOf (findMember (objectOf d) "readback_doors"))
    (itemsOf (findMember (objectOf e) "readback_doors"))

/-- No boss has the encounter bit that is kept as -1. -/
def NoLastBit (document : Value) : Prop :=
  ∀ boss ∈ itemsOf (findMember (objectOf document) "bosses"),
    findMember (objectOf boss) "dungeon_encounter_bit" ≠ some (.number (.uint 0xFFFFFFFF))

/-! ### Values -/

theorem textOf_injective : Function.Injective textOf := by
  have hbyte : Function.Injective Char.ofUInt8 := fun c c' h =>
    UInt8.toUInt32_inj.mp (congrArg Char.val h)
  exact fun s t h => hbyte.list_map (String.ofList_injective h)

theorem keepsAll_asArray : KeepsAll asArray := by
  intro v w x hv hw
  cases v <;> cases hv
  cases w <;> cases hw
  rfl

theorem keepsAll_asString : KeepsAll asString := by
  intro v w x hv hw
  cases v <;> cases hv
  cases w <;> cases hw
  rfl

variable {value item : Value} {α κ : Type} {name : String} {readKey : String → Option κ}

theorem asUInt_eq_some {n : UInt32} : asUInt value = some n ↔ value = .number (.uint n) := by
  constructor
  · intro h
    unfold asUInt at h
    split at h
    · cases h
      rfl
    · cases h
  · rintro rfl
    rfl

theorem keepsAll_asUInt : KeepsAll asUInt := fun _ _ _ hv hw =>
  (asUInt_eq_some.mp hv).trans (asUInt_eq_some.mp hw).symm

theorem orNull_eq_some {read : Value → Option α} {v : Value} {x : Option α}
    (h : orNull read v = some x) : x = none ∧ v = .null ∨ ∃ a, x = some a ∧ read v = some a := by
  cases v with
  | null => exact .inl ⟨(some.inj h).symm, rfl⟩
  | _ =>
    obtain ⟨a, ha, rfl⟩ := map_eq_some_iff.mp h
    exact .inr ⟨a, rfl, ha⟩

/-- Null is told apart from all that is read. -/
theorem keepsAll_orNull {read : Value → Option α} (h : KeepsAll read) : KeepsAll (orNull read) := by
  intro v w x hv hw
  rcases orNull_eq_some hv with ⟨rfl, rfl⟩ | ⟨a, rfl, hreadv⟩
  · rcases orNull_eq_some hw with ⟨-, rfl⟩ | ⟨a, ha, -⟩
    · rfl
    · cases ha
  · rcases orNull_eq_some hw with ⟨ha, -⟩ | ⟨_, ⟨⟩, hreadw⟩
    · cases ha
    · exact h hreadv hreadw

theorem keepsAll_readStringArray : KeepsAll readStringArray :=
  keepsAll_asArray.bind (keepsAll_asString.map textOf_injective).mapM

theorem keepsAll_readUIntArray : KeepsAll readUIntArray :=
  keepsAll_asArray.bind keepsAll_asUInt.mapM

/-- A difficulty that is read is under its own token. -/
theorem keepsAll_readDifficulty : KeepsAll readDifficulty := by
  intro s t difficulty hs ht
  have hs := (filter_eq_some_iff.mp hs).2
  have ht := (filter_eq_some_iff.mp ht).2
  exact (beq_iff_eq.mp hs).symm.trans (beq_iff_eq.mp ht)

theorem keepsAll_readDifficultyArray : KeepsAll readDifficultyArray :=
  keepsAll_readStringArray.bind keepsAll_readDifficulty.mapM

theorem keepsAll_readInitialState : KeepsAll readInitialState := by
  have hread {s : List UInt8} {state : UInt8} (h : readInitialState s = some state) :
      textOf s = if state = stateToBeDecided then "to_be_decided" else "not_started" := by
    unfold readInitialState at h
    split at h
    · next hs =>
      cases h
      exact hs
    · split at h
      · next hs =>
        cases h
        exact hs
      · cases h
  intro s t state hs ht
  exact textOf_injective ((hread hs).trans (hread ht).symm)

/-! ### Numbers -/

theorem readUInt_required {object : Object} {n : Option UInt32}
    (h : readUInt object name false = some n) : ∃ k, n = some k := by
  obtain ⟨value, -, h⟩ := bind_eq_some_iff.mp h
  obtain ⟨k, -, rfl⟩ := map_eq_some_iff.mp h
  exact ⟨k, rfl⟩

theorem readUInt_eq_some {object : Object} {n : Option UInt32}
    (h : readUInt object name true = some n) :
    n = none ∧ findMember object name = some .null ∨
      ∃ k, n = some k ∧ findMember object name = some (.number (.uint k)) := by
  obtain ⟨value, hvalue, h⟩ := bind_eq_some_iff.mp h
  rw [hvalue]
  rcases orNull_eq_some h with ⟨rfl, rfl⟩ | ⟨k, rfl, hk⟩
  · exact .inl ⟨rfl, rfl⟩
  · exact .inr ⟨k, rfl, congrArg some (asUInt_eq_some.mp hk)⟩

variable {d e : Object} {name : String}

/-- A number that has to be there is kept. -/
theorem required_eq_iff {n k : UInt32} (hd : readUInt d name false = some (some n))
    (he : readUInt e name false = some (some k)) :
    n = k ↔ findMember d name = findMember e name := by
  rw [← some.injEq]
  exact (keepsAll_asUInt.map fun _ _ => some.inj).required.eq_iff hd he

/-- An entry or id is kept but for null, which is 0. -/
theorem id_eq_iff {n k : UInt32} (hd : (readUInt d name true).map (·.getD 0) = some n)
    (he : (readUInt e name true).map (·.getD 0) = some k) :
    n = k ↔ idOf (findMember d name) = idOf (findMember e name) := by
  have hread {d : Object} {n : UInt32} (h : (readUInt d name true).map (·.getD 0) = some n) :
      idOf (findMember d name) = some (.number (.uint n)) := by
    obtain ⟨o, ho, rfl⟩ := map_eq_some_iff.mp h
    rcases readUInt_eq_some ho with ⟨rfl, hfound⟩ | ⟨k, rfl, hfound⟩
    · rw [hfound]
      rfl
    · rw [hfound]
      rfl
  rw [hread hd, hread he]
  simp

/-- An encounter bit is kept, if it is not the one that is kept as -1. -/
theorem bit_eq_iff {n k : Int32} (hd : (readUInt d name true).map encounterBit = some n)
    (he : (readUInt e name true).map encounterBit = some k)
    (hlast : findMember d name ≠ some (.number (.uint 0xFFFFFFFF)))
    (hlast' : findMember e name ≠ some (.number (.uint 0xFFFFFFFF))) :
    n = k ↔ findMember d name = findMember e name := by
  have hinj : Function.Injective UInt32.toInt32 :=
    Function.LeftInverse.injective (g := Int32.toUInt32) fun _ => rfl
  have hnull {n : UInt32}
      (h : some (.number (.uint n)) ≠ some (.number (.uint 0xFFFFFFFF) : Value)) :
      n.toInt32 ≠ -1 := by
    intro heq
    have hmax : (0xFFFFFFFF : UInt32).toInt32 = -1 := by decide
    exact h (by rw [hinj (heq.trans hmax.symm)])
  obtain ⟨o, ho, rfl⟩ := map_eq_some_iff.mp hd
  obtain ⟨p, hp, rfl⟩ := map_eq_some_iff.mp he
  rcases readUInt_eq_some ho with ⟨rfl, hfound⟩ | ⟨n, rfl, hfound⟩
  · rcases readUInt_eq_some hp with ⟨rfl, hfound'⟩ | ⟨k, rfl, hfound'⟩
    · simp [hfound, hfound']
    · simpa [hfound, hfound', encounterBit] using (hnull (hfound' ▸ hlast')).symm
  · rcases readUInt_eq_some hp with ⟨rfl, hfound'⟩ | ⟨k, rfl, hfound'⟩
    · simpa [hfound, hfound', encounterBit] using hnull (hfound ▸ hlast)
    · simp [hfound, hfound', encounterBit, hinj.eq_iff]

/-! ### Maps -/

theorem readEntry_eq_some {member : List UInt8 × Value} {entry : κ × UInt32}
    (h : readEntry readKey member = some entry) :
    readKey (textOf member.1) = some entry.1 ∧ asUInt member.2 = some entry.2 := by
  obtain ⟨key, hkey, h⟩ := bind_eq_some_iff.mp h
  obtain ⟨value, hvalue, h⟩ := bind_eq_some_iff.mp h
  cases h
  exact ⟨hkey, hvalue⟩

/-- Of an object without duplicate keys the map keeps all but the order. -/
theorem readMap_eq_iff [Ord κ] [Std.TransOrd κ] [Std.LawfulEqOrd κ] [DecidableEq κ]
    (hkeys : KeepsAll readKey) {d e : Object} (hd : (d.map Prod.fst).Nodup)
    (he : (e.map Prod.fst).Nodup) {x y : Std.ExtTreeMap κ UInt32} (hx : readMap readKey d = some x)
    (hy : readMap readKey e = some y) : x = y ↔ ∀ member, member ∈ d ↔ member ∈ e := by
  have hname {member member' : List UInt8 × Value} {entry entry' : κ × UInt32}
      (h : readEntry readKey member = some entry) (h' : readEntry readKey member' = some entry')
      (hsame : entry.1 = entry'.1) : member.1 = member'.1 :=
    textOf_injective (hkeys (readEntry_eq_some h).1 (hsame ▸ (readEntry_eq_some h').1))
  obtain ⟨entries, hentries, rfl⟩ := map_eq_some_iff.mp hx
  obtain ⟨entries', hentries', rfl⟩ := map_eq_some_iff.mp hy
  apply Reflects.map (fun _ _ _ _ => hname) _ hd he ⟨entries, hentries, rfl⟩
    ⟨entries', hentries', rfl⟩
  intro member member' entry h h'
  exact Prod.ext (hname h h' rfl)
    (keepsAll_asUInt (readEntry_eq_some h).2 (readEntry_eq_some h').2)

theorem distinct_of_mem_items {items : List Value} (h : JsonValue.DistinctItems items)
    (hitem : item ∈ items) : item.Distinct := by
  induction items with
  | nil => cases hitem
  | cons first rest ih =>
    rcases mem_cons.mp hitem with rfl | hitem
    · exact h.1
    · exact ih h.2 hitem

theorem distinct_of_mem_members {members : Object} (h : JsonValue.DistinctMembers members)
    {member : List UInt8 × Value} (hmember : member ∈ members) : member.2.Distinct := by
  induction members with
  | nil => cases hmember
  | cons first rest ih =>
    rcases mem_cons.mp hmember with rfl | hmember
    · exact h.1
    · exact ih h.2 hmember

theorem distinct_findMember {found : Value} (h : value.Distinct)
    (hfound : findMember (objectOf value) name = some found) : found.Distinct := by
  obtain ⟨member, hmember, rfl⟩ := map_eq_some_iff.mp hfound
  cases value with
  | object members => exact distinct_of_mem_members h.2 (mem_of_find?_eq_some hmember)
  | _ => cases hmember

theorem nodup_membersOf (h : value.Distinct) (name : String) :
    ((membersOf (findMember (objectOf value) name)).map Prod.fst).Nodup := by
  cases hfound : findMember (objectOf value) name with
  | none => exact nodup_nil
  | some found =>
    cases found with
    | object members => exact (distinct_findMember h hfound).1
    | _ => exact nodup_nil

theorem distinct_of_mem_itemsOf (h : value.Distinct)
    (hitem : item ∈ itemsOf (findMember (objectOf value) name)) : item.Distinct := by
  cases hfound : findMember (objectOf value) name with
  | none =>
    rw [hfound] at hitem
    cases hitem
  | some found =>
    rw [hfound] at hitem
    cases found with
    | array items => exact distinct_of_mem_items (distinct_findMember h hfound) hitem
    | _ => cases hitem

/-! ### Bosses -/

/-- What is read of a boss. -/
structure ReadsBoss (boss : Object) (definition : BossDefinition) : Prop where
  key : (readString boss "key").map textOf = some definition.key
  name : definition.name = textOf ((readString boss "name").getD [])
  bossIndex : readUInt boss "boss_index" false = some (some definition.bossIndex)
  creatureEntry : (readUInt boss "creature_entry" true).map (·.getD 0) =
    some definition.creatureEntry
  creditEntry : (readUInt boss "credit_entry" true).map (·.getD 0) = some definition.creditEntry
  dungeonEncounterId : (readUInt boss "dungeon_encounter_id" true).map (·.getD 0) =
    some definition.dungeonEncounterId
  byDifficulty :
    readMap readDifficulty (membersOf (findMember boss "dungeon_encounter_id_by_difficulty")) =
      some definition.dungeonEncounterIdByDifficulty
  bit : (readUInt boss "dungeon_encounter_bit" true).map encounterBit =
    some definition.dungeonEncounterBit
  predecessors : (findMember boss "predecessors").bind readStringArray =
    some definition.predecessors
  extraSaveValues : readMap some (membersOf (findMember boss "extra_save_values")) =
    some definition.extraSaveValues
  dead : ((findMember boss "dead_db_spawn_entries").bind (orNull readUIntArray)).map
      (fun entries => (entries.isSome, entries.getD [])) =
    some (definition.deadDbSpawnEntriesKnown, definition.deadDbSpawnEntries)
  summonedEntries : (findMember boss "summoned_entries").bind readUIntArray =
    some definition.summonedEntries
  difficulties : readDifficultyArray (.array (itemsOf (findMember boss "difficulties"))) =
    some definition.difficulties

theorem bind_eq_ok {ε β : Type} {x : Except ε α} {f : α → Except ε β} {b : β} :
    (x >>= f) = .ok b ↔ ∃ a, x = .ok a ∧ f a = .ok b := by
  cases x <;> simp [bind, Except.bind]

theorem orFail_eq_ok {failure : String} {o : Option α} {a : α} :
    orFail failure o = .ok a ↔ o = some a := by
  cases o <;> simp [orFail]

/-- An object or array that is absent is read as an empty one. -/
theorem readMap_membersOf [Ord κ] [Std.TransOrd κ] {o : Option Value}
    {map : Std.ExtTreeMap κ UInt32}
    (h : o.elim (some ∅) (fun value => (asObject value).bind (readMap readKey)) = some map) :
    readMap readKey (membersOf o) = some map := by
  cases o with
  | none => exact h
  | some value =>
    obtain ⟨members, hmembers, h⟩ := bind_eq_some_iff.mp h
    rw [membersOf, bind_some, hmembers]
    exact h

theorem readDifficultyArray_itemsOf {o : Option Value} {l : List UInt8}
    (h : o.elim (some []) readDifficultyArray = some l) :
    readDifficultyArray (.array (itemsOf o)) = some l := by
  cases o with
  | none => exact h
  | some value =>
    cases value with
    | array items => exact h
    | _ => cases h

theorem readBoss_eq_ok {definition : BossDefinition} (h : readBoss value = .ok definition) :
    ReadsBoss (objectOf value) definition := by
  simp only [readBoss, bind_eq_ok, orFail_eq_ok, pure, Except.pure, Except.ok.injEq] at h
  obtain ⟨boss, hboss, key, hkey, index, hindex, creature, hcreature, credit, hcredit, bit, hbit,
    id, hid, byDifficulty, hbyDifficulty, predecessors, hpredecessors, extras, hextras, values,
    hvalues, dead, hdead, entries, hentries, summoned, hsummoned, difficulties, hdifficulties,
    rfl⟩ := h
  obtain rfl : objectOf value = boss := by simp [membersOf, hboss]
  obtain ⟨index, rfl⟩ := readUInt_required hindex
  obtain rfl : membersOf (findMember (objectOf value) "extra_save_values") = extras := by
    rw [membersOf, hextras]
    rfl
  exact
    { key := by rw [hkey, map_some]
      name := rfl
      bossIndex := hindex
      creatureEntry := by rw [hcreature, map_some]
      creditEntry := by rw [hcredit, map_some]
      dungeonEncounterId := by rw [hid, map_some]
      byDifficulty := readMap_membersOf hbyDifficulty
      bit := by rw [hbit, map_some]
      predecessors := hpredecessors
      extraSaveValues := hvalues
      dead := by rw [hdead, bind_some, hentries, map_some]
      summonedEntries := hsummoned
      difficulties := readDifficultyArray_itemsOf hdifficulties }

attribute [ext] BossDefinition RaidDefinition

/-- Two bosses are read as one just when they agree. -/
theorem reflects_readBoss :
    Reflects (fun boss : Value => boss.Distinct ∧
        findMember (objectOf boss) "dungeon_encounter_bit" ≠ some (.number (.uint 0xFFFFFFFF)))
      AgreeBoss (fun boss definition => readBoss boss = .ok definition) := by
  intro d e x y hd he hx hy
  have hx := readBoss_eq_ok hx
  have hy := readBoss_eq_ok hy
  have hdead : Function.Injective fun o : Option (List UInt32) => (o.isSome, o.getD []) := by
    intro o p h
    cases o <;> cases p <;> simp_all
  rw [BossDefinition.ext_iff, hx.name, hy.name, textOf_injective.eq_iff,
    (keepsAll_asString.required.map textOf_injective).eq_iff hx.key hy.key,
    required_eq_iff hx.bossIndex hy.bossIndex, id_eq_iff hx.creatureEntry hy.creatureEntry,
    id_eq_iff hx.creditEntry hy.creditEntry,
    id_eq_iff hx.dungeonEncounterId hy.dungeonEncounterId,
    readMap_eq_iff keepsAll_readDifficulty (nodup_membersOf hd.1 _) (nodup_membersOf he.1 _)
      hx.byDifficulty hy.byDifficulty, bit_eq_iff hx.bit hy.bit hd.2 he.2,
    keepsAll_readStringArray.required.eq_iff hx.predecessors hy.predecessors,
    readMap_eq_iff (fun _ _ _ h h' => some.inj (h.trans h'.symm)) (nodup_membersOf hd.1 _)
      (nodup_membersOf he.1 _) hx.extraSaveValues hy.extraSaveValues,
    ← and_assoc (a := x.deadDbSpawnEntriesKnown = _), ← Prod.mk.injEq,
    ((keepsAll_orNull keepsAll_readUIntArray).required.map hdead).eq_iff hx.dead hy.dead,
    keepsAll_readUIntArray.required.eq_iff hx.summonedEntries hy.summonedEntries,
    keepsAll_readDifficultyArray.eq_iff hx.difficulties hy.difficulties, JsonValue.array.injEq]
  constructor
  · rintro ⟨hkey, hname, hindex, hcreature, hcredit, hid, hdifficulty, hbit, hpredecessors, hvalues,
      hentries, hsummoned, hdifficulties⟩
    exact ⟨by simp [AgreeAt, *], by simp [*], hdifficulty, hvalues, hdifficulties, hname⟩
  · rintro ⟨hkeys, hids, hdifficulty, hvalues, hdifficulties, hname⟩
    simp only [AgreeAt, forall_mem_cons] at hkeys hids
    obtain ⟨hkey, hindex, hbit, hpredecessors, hentries, hsummoned, -⟩ := hkeys
    obtain ⟨hcreature, hcredit, hid, -⟩ := hids
    exact ⟨hkey, hname, hindex, hcreature, hcredit, hid, hdifficulty, hbit, hpredecessors, hvalues,
      hentries, hsummoned, hdifficulties⟩
/-! ### Documents -/

theorem reflects_readSaveExtra :
    Reflects (fun _ => True)
      (fun d e => AgreeAt ["name", "encoding", "default"] (objectOf d) (objectOf e))
      (fun value extra => readSaveExtra value = some extra) := by
  have hread {value : Value} {extra : SaveExtraDefinition} (h : readSaveExtra value = some extra) :
      (readString (objectOf value) "name").map textOf = some extra.name ∧
        (readString (objectOf value) "encoding").map textOf = some "raw_uint8" ∧
        readUInt (objectOf value) "default" false = some (some extra.default) ∧
        extra.encoding = .rawUint8 := by
    obtain ⟨object, hobject, h⟩ := bind_eq_some_iff.mp h
    obtain rfl : objectOf value = object := by simp [membersOf, hobject]
    obtain ⟨name, hname, h⟩ := bind_eq_some_iff.mp h
    obtain ⟨encoding, hencoding, h⟩ := bind_eq_some_iff.mp h
    obtain ⟨default, hdefault, h⟩ := bind_eq_some_iff.mp h
    obtain ⟨n, rfl⟩ := readUInt_required hdefault
    obtain ⟨hencoding, hraw⟩ := filter_eq_some_iff.mp hencoding
    obtain rfl := some.inj h
    exact ⟨by rw [hname, map_some],
      by rw [hencoding, map_some, beq_iff_eq.mp hraw], hdefault, rfl⟩
  rintro d e ⟨name, encoding, default⟩ ⟨name', encoding', default'⟩ - - hx hy
  obtain ⟨hname, hencoding, hdefault, rfl⟩ := hread hx
  obtain ⟨hname', hencoding', hdefault', rfl⟩ := hread hy
  have htext := keepsAll_asString.required.map textOf_injective
  have hsame := htext hencoding hencoding'
  rw [SaveExtraDefinition.mk.injEq, htext.eq_iff hname hname', required_eq_iff hdefault hdefault']
  simp [AgreeAt, hsame]

theorem reflects_readDoor :
    Reflects (fun _ => True)
      (fun d e => AgreeAt ["entry", "open_when_done"] (objectOf d) (objectOf e))
      (fun value door => readDoor value = some door) := by
  have hread {value : Value} {door : DoorReadback} (h : readDoor value = some door) :
      readUInt (objectOf value) "entry" false = some (some door.entry) ∧
        (findMember (objectOf value) "open_when_done").bind readStringArray =
          some door.openWhenDone := by
    obtain ⟨object, hobject, h⟩ := bind_eq_some_iff.mp h
    obtain rfl : objectOf value = object := by simp [membersOf, hobject]
    obtain ⟨entry, hentry, h⟩ := bind_eq_some_iff.mp h
    obtain ⟨n, rfl⟩ := readUInt_required hentry
    obtain ⟨openWhenDone, hopen, h⟩ := bind_eq_some_iff.mp h
    obtain rfl := some.inj h
    exact ⟨hentry, hopen⟩
  rintro d e ⟨entry, openWhenDone⟩ ⟨entry', openWhenDone'⟩ - - hx hy
  obtain ⟨hentry, hopen⟩ := hread hx
  obtain ⟨hentry', hopen'⟩ := hread hy
  rw [DoorReadback.mk.injEq, required_eq_iff hentry hentry',
    keepsAll_readStringArray.required.eq_iff hopen hopen']
  simp [AgreeAt]

/-- What is read of a document. -/
structure ReadsDocument (document : Object) (definition : RaidDefinition) : Prop where
  schema : (readString document "schema").map textOf = some definition.schema
  raid : (readString document "raid").map textOf = some definition.raid
  mapId : readUInt document "map_id" false = some (some definition.mapId)
  scriptName : (readString document "script_name").map textOf = some definition.scriptName
  scriptHeader : (findMember document "script_header").bind asString = some definition.scriptHeader
  initialBossState : (findMember document "initial_boss_state").bind
    (fun value => (asString value).bind readInitialState) = some definition.initialBossState
  difficulties : (findMember document "difficulties").bind readDifficultyArray =
    some definition.difficulties
  encounterCount : readMap readDifficulty (membersOf (findMember document "encounter_count")) =
    some definition.encounterCount
  bosses : List.Forall₂ (fun value boss => readBoss value = .ok boss)
    (itemsOf (findMember document "bosses")) definition.bosses
  saveExtras : List.Forall₂ (fun value extra => readSaveExtra value = some extra)
    (itemsOf (findMember document "save_extras")) definition.saveExtras
  readbackDoors : List.Forall₂ (fun value door => readDoor value = some door)
    (itemsOf (findMember document "readback_doors")) definition.readbackDoors

theorem parseRaidDefinitionJson_eq_ok {definition : RaidDefinition}
    (h : parseRaidDefinitionJson value = .ok definition) :
    ReadsDocument (objectOf value) definition := by
  simp only [parseRaidDefinitionJson, bind_eq_ok, orFail_eq_ok] at h
  obtain ⟨document, hdocument, schema, hschema, raid, hraid, mapId, hmapId, name, hname, header,
    hheader, initial, hinitial, difficulties, hdifficulties, counts, hcounts, count, hcount, bosses,
    hbosses, definitions, hdefinitions, extras, hextras, saved, hsaved, doors, hdoors, readback,
    hreadback, h⟩ := h
  obtain rfl : objectOf value = document := by simp [membersOf, hdocument]
  obtain ⟨n, rfl⟩ := readUInt_required hmapId
  split at h
  · cases h
    have hcount : readMap readDifficulty
        (membersOf (findMember (objectOf value) "encounter_count")) = some count := by
      rw [membersOf, hcounts]
      exact hcount
    have hbosses : itemsOf (findMember (objectOf value) "bosses") = bosses := by
      rw [itemsOf, (filter_eq_some_iff.mp hbosses).1]
      rfl
    have hextras : itemsOf (findMember (objectOf value) "save_extras") = extras := by
      rw [itemsOf, hextras]
      rfl
    have hdoors : itemsOf (findMember (objectOf value) "readback_doors") = doors := by
      cases hfound : findMember (objectOf value) "readback_doors" with
      | none =>
        rw [hfound] at hdoors
        exact some.inj hdoors
      | some found =>
        rw [hfound] at hdoors
        rw [itemsOf, bind_some, show asArray found = some doors from hdoors]
        rfl
    exact
      { schema := by rw [hschema, map_some]
        raid := by rw [hraid, map_some]
        mapId := hmapId
        scriptName := by rw [hname, map_some]
        scriptHeader := hheader
        initialBossState := by rw [← hinitial, readString, bind_assoc]
        difficulties := hdifficulties
        encounterCount := hcount
        bosses := hbosses ▸ forall₂_of_mapM_eq_ok hdefinitions
        saveExtras := hextras ▸ forall₂_of_mapM_eq_some hsaved
        readbackDoors := hdoors ▸ forall₂_of_mapM_eq_some hreadback }
  · cases h

/-- Two accepted documents without duplicate keys, none of whose encounter bits is the one kept
as -1, give one definition just when they agree on all that is read. -/
theorem parseRaidDefinitionJson_eq_iff {d e : Value} {x y : RaidDefinition} (hd : d.Distinct)
    (he : e.Distinct) (hlast : NoLastBit d) (hlast' : NoLastBit e)
    (hx : parseRaidDefinitionJson d = .ok x) (hy : parseRaidDefinitionJson e = .ok y) :
    x = y ↔ AgreeDocument d e := by
  have hx := parseRaidDefinitionJson_eq_ok hx
  have hy := parseRaidDefinitionJson_eq_ok hy
  have htext := keepsAll_asString.required.map textOf_injective
  have hbosses := reflects_readBoss.list
    (fun boss hboss => ⟨distinct_of_mem_itemsOf hd hboss, hlast boss hboss⟩)
    (fun boss hboss => ⟨distinct_of_mem_itemsOf he hboss, hlast' boss hboss⟩) hx.bosses hy.bosses
  rw [RaidDefinition.ext_iff, htext.eq_iff hx.schema hy.schema, htext.eq_iff hx.raid hy.raid,
    required_eq_iff hx.mapId hy.mapId, htext.eq_iff hx.scriptName hy.scriptName,
    keepsAll_asString.required.eq_iff hx.scriptHeader hy.scriptHeader,
    (keepsAll_asString.bind keepsAll_readInitialState).required.eq_iff hx.initialBossState
      hy.initialBossState,
    keepsAll_readDifficultyArray.required.eq_iff hx.difficulties hy.difficulties,
    readMap_eq_iff keepsAll_readDifficulty (nodup_membersOf hd _) (nodup_membersOf he _)
      hx.encounterCount hy.encounterCount, hbosses,
    reflects_readSaveExtra.list (fun _ _ => trivial) (fun _ _ => trivial) hx.saveExtras
      hy.saveExtras,
    reflects_readDoor.list (fun _ _ => trivial) (fun _ _ => trivial) hx.readbackDoors
      hy.readbackDoors]
  constructor
  · rintro ⟨hschema, hraid, hmap, hname, hheader, hinitial, hdifficulties, hcount, hbosses, hextras,
      hdoors⟩
    exact ⟨by simp [AgreeAt, *], hcount, hbosses, hextras, hdoors⟩
  · rintro ⟨hkeys, hcount, hbosses, hextras, hdoors⟩
    simp only [AgreeAt, forall_mem_cons] at hkeys
    obtain ⟨hschema, hraid, hmap, hname, hheader, hinitial, hdifficulties, -⟩ := hkeys
    exact ⟨hschema, hraid, hmap, hname, hheader, hinitial, hdifficulties, hcount, hbosses, hextras,
      hdoors⟩

/-- These members, a text standing for its bytes. -/
def objectFrom (members : List (String × Value)) : Value :=
  .object (members.map fun (name, value) => (name.toUTF8.data.toList, value))

/-- A string value of these bytes. -/
def stringFrom (text : String) : Value := .string text.toUTF8.data.toList

/-- The members of the one boss of a raid, with more behind them. -/
def loneBoss (more : List (String × Value)) : Value :=
  objectFrom ([("key", stringFrom "warden"), ("boss_index", .number (.uint 0)),
    ("creature_entry", .null), ("credit_entry", .number (.uint 0)),
    ("dungeon_encounter_bit", .null), ("dungeon_encounter_id", .null), ("predecessors", .array []),
    ("extra_save_values", .object []), ("dead_db_spawn_entries", .null),
    ("summoned_entries", .array [])] ++ more)

/-- The document of a raid with one boss. -/
def loneRaid (more : List (String × Value)) : Value :=
  objectFrom [("schema", stringFrom schemaVersion), ("raid", stringFrom "vault"),
    ("map_id", .number (.uint 1)), ("script_name", stringFrom "instance_vault"),
    ("script_header", stringFrom "V"), ("initial_boss_state", stringFrom "not_started"),
    ("difficulties", .array [stringFrom "10n"]),
    ("encounter_count", objectFrom [("10n", .number (.uint 1))]),
    ("bosses", .array [loneBoss more]), ("save_extras", .array [])]

/-- A boss of every difficulty that says so. -/
def everyDifficulty : List (String × Value) := [("difficulties", .array [])]

theorem distinct_loneRaid : (loneRaid []).Distinct ∧ (loneRaid everyDifficulty).Distinct := by
  simp only [loneRaid, loneBoss, everyDifficulty, objectFrom, stringFrom, JsonValue.Distinct,
    JsonValue.DistinctMembers, JsonValue.DistinctItems, map_cons, map_nil,
    cons_append, nil_append, true_and, and_true]
  decide +kernel

theorem noLastBit_loneRaid (more : List (String × Value)) : NoLastBit (loneRaid more) := by
  intro boss hboss
  obtain rfl : boss = loneBoss more := mem_singleton.mp hboss
  rintro ⟨⟩

theorem parse_loneRaid : ∃ x, parseRaidDefinitionJson (loneRaid []) = .ok x ∧
    parseRaidDefinitionJson (loneRaid everyDifficulty) = .ok x := by
  have haccepted : (parseRaidDefinitionJson (loneRaid [])).isOk = true := by decide +kernel
  have hsame : parseRaidDefinitionJson (loneRaid everyDifficulty) =
    parseRaidDefinitionJson (loneRaid []) := rfl
  rw [hsame]
  cases h : parseRaidDefinitionJson (loneRaid []) with
  | error _ =>
    rw [h] at haccepted
    cases haccepted
  | ok x => exact ⟨x, rfl, rfl⟩

theorem parseRaidDefinitionJson_eq_iff_loneRaid :
    ∃ x y, parseRaidDefinitionJson (loneRaid []) = .ok x ∧
      parseRaidDefinitionJson (loneRaid everyDifficulty) = .ok y ∧
      (x = y ↔ AgreeDocument (loneRaid []) (loneRaid everyDifficulty)) := by
  obtain ⟨x, hx, hy⟩ := parse_loneRaid
  exact ⟨x, x, hx, hy, parseRaidDefinitionJson_eq_iff distinct_loneRaid.1 distinct_loneRaid.2
    (noLastBit_loneRaid _) (noLastBit_loneRaid _) hx hy⟩

/-- Difficulties that are absent are told apart from none by no definition. -/
theorem boss_difficulties_lost :
    ¬ ∀ d e x y, d.Distinct → e.Distinct → parseRaidDefinitionJson d = .ok x →
      parseRaidDefinitionJson e = .ok y →
      (x = y ↔ AgreeDocument d e ∧ List.Forall₂
        (fun d e => AgreeAt ["difficulties"] (objectOf d) (objectOf e))
        (itemsOf (findMember (objectOf d) "bosses"))
        (itemsOf (findMember (objectOf e) "bosses"))) := by
  intro h
  obtain ⟨x, hx, hy⟩ := parse_loneRaid
  have hagree := ((h _ _ _ _ distinct_loneRaid.1 distinct_loneRaid.2 hx hy).mp rfl).2
  have hbosses : List.Forall₂ (fun d e => AgreeAt ["difficulties"] (objectOf d) (objectOf e))
    [loneBoss []] [loneBoss everyDifficulty] := hagree
  cases (forall₂_cons.mp hbosses).1 "difficulties" (mem_singleton_self _)

end TrinityCore.Bots.RaidLockout
