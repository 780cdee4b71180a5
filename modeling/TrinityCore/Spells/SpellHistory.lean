import Mathlib.Data.Int.Basic
import Mathlib.Data.List.Sort
import TrinityCore.Lib.NodeMap

/-!
# The spell history

The spell, category and school cooldowns of a unit, as `SpellHistory` keeps them.
`_categoryCooldowns` holds pointers to the entries of `_spellCooldowns`; reading through one
whose entry is gone is a fault. Times are clock ticks, of which there are a million to a
millisecond, and unbounded. The packets to the client are left out.
-/

namespace TrinityCore.Spells

/-- A time point or duration of `SpellHistory::Clock`. -/
abbrev Time := Int

/-- `std::chrono::milliseconds` as a clock duration. -/
def milliseconds (n : Int) : Time := n * 1000000

/-- `std::chrono::seconds` as a clock duration. -/
def seconds (n : Int) : Time := n * 1000000000

/-- `MONTH`, in seconds. -/
def MONTH : Int := 30 * 24 * 60 * 60

/-- `InfinityCooldownDelay`. -/
def infinityCooldownDelay : Time := seconds MONTH

/-- `MINUTE * IN_MILLISECONDS`. -/
def minuteInMilliseconds : UInt32 := 60 * 1000

/-- `SPELL_PREVENTION_TYPE_SILENCE`. -/
def SPELL_PREVENTION_TYPE_SILENCE : UInt32 := 1

/-- `MAX_SPELL_SCHOOL`. -/
def MAX_SPELL_SCHOOL : Nat := 7

/-- What the history reads of `SpellInfo`. -/
structure SpellInfo where
  id : UInt32
  recoveryTime : UInt32 := 0
  categoryRecoveryTime : UInt32 := 0
  /-- `GetCategory()`. -/
  category : UInt32 := 0
  preventionType : UInt32 := 0
  schoolMask : UInt32 := 0
  /-- `IsCooldownStartedOnEvent()`. -/
  cooldownStartedOnEvent : Bool := false
  /-- `SPELL_ATTR6_NO_CATEGORY_COOLDOWN_MODS`. -/
  noCategoryCooldownMods : Bool := false
  deriving DecidableEq, Repr

/-- Whether `LockSpellSchool` prevents the spell when it locks the schools. -/
def SpellInfo.silencedBy (spellInfo : SpellInfo) (schoolMask : UInt32) : Bool :=
  !spellInfo.cooldownStartedOnEvent
    && spellInfo.preventionType == SPELL_PREVENTION_TYPE_SILENCE
    && schoolMask &&& spellInfo.schoolMask != 0

/-- Whether the cooldown counts as one of a profession when a duel ends. -/
def SpellInfo.isProfession (spellInfo : SpellInfo) : Bool :=
  10 * minuteInMilliseconds < spellInfo.recoveryTime
    || 10 * minuteInMilliseconds < spellInfo.categoryRecoveryTime

/-- What the history reads of `ItemEffect`. -/
structure ItemEffect where
  spellID : UInt32
  cooldown : Int32
  category : UInt32
  categoryCooldown : Int32
  deriving DecidableEq, Repr

/-- The static data: the spells by their id, and the effects of the item templates. -/
structure GameData where
  getSpellInfo : UInt32 → Option SpellInfo
  id_eq : ∀ id spellInfo, getSpellInfo id = some spellInfo → spellInfo.id = id
  getItemTemplate : UInt32 → Option (List ItemEffect)

/-- `SpellHistory::CooldownEntry`. -/
structure CooldownEntry where
  spellId : UInt32 := 0
  cooldownEnd : Time := 0
  itemId : UInt32 := 0
  categoryId : UInt32 := 0
  categoryEnd : Time := 0
  onHold : Bool := false
  deriving DecidableEq, Repr

/-- What ends a run of the program. -/
inductive Fault
  /-- An `ASSERT` has failed. -/
  | assertion
  /-- A pointer to an erased cooldown entry was read through. -/
  | dangling
  deriving DecidableEq, Repr

/-- The unit the history belongs to, with the spells `LockSpellSchool` finds on it; the
spells of players and pets say whether they are removed. -/
inductive Owner
  | player (spells : List (UInt32 × Bool))
  | pet (spells : List (UInt32 × Bool))
  | creature (spells : List UInt32)
  deriving DecidableEq, Repr

/-- `SpellHistory`. -/
structure SpellHistory where
  spellCooldowns : NodeMap UInt32 CooldownEntry := .empty
  spellCooldownsBeforeDuel : AList (fun _ : UInt32 => CooldownEntry) := ∅
  categoryCooldowns : AList (fun _ : UInt32 => Nat) := ∅
  schoolLockouts : Fin MAX_SPELL_SCHOOL → Time := fun _ => 0

/-- What the owner's auras, its spell modifiers and the calendar do to cooldowns. -/
structure CooldownMods where
  /-- `ApplySpellMod` of the mod owner, if there is one. -/
  applySpellMod : Option (Int32 → Int32) := none
  /-- The factor of `SPELL_AURA_MOD_SPELL_COOLDOWN_BY_HASTE`, if the aura is there. -/
  byHaste : Option (Int32 → Int32) := none
  /-- The total of `SPELL_AURA_MOD_COOLDOWN`. -/
  cooldownMod : Int32 := 0
  /-- The player who controls the owner knows the spell, or there is no such player. -/
  ownSpell : Bool := true
  /-- The totals of `SPELL_AURA_MOD_SPELL_CATEGORY_COOLDOWN`. -/
  categoryModifier : UInt32 → Int32 := fun _ => 0
  /-- The `CooldownInDays` flag of the category entries. -/
  cooldownInDays : UInt32 → Option Bool := fun _ => some false
  /-- How many milliseconds the next daily reset is away. -/
  untilDailyReset : Int := 0

/-- `GetCooldownDurations`: the cooldown, the category and its cooldown. -/
def getCooldownDurations (data : GameData) (spellInfo : SpellInfo) (itemId : UInt32) :
    Int32 × UInt32 × Int32 :=
  let effect := if itemId = 0 then none else
    (data.getItemTemplate itemId).bind (·.find? (·.spellID == spellInfo.id))
  let (tmpCooldown, tmpCategoryId, tmpCategoryCooldown) := match effect with
    | some effect => (effect.cooldown, effect.category, effect.categoryCooldown)
    | none => (-1, 0, -1)
  if tmpCooldown < 0 ∧ tmpCategoryCooldown < 0 then
    (spellInfo.recoveryTime.toInt32, spellInfo.category, spellInfo.categoryRecoveryTime.toInt32)
  else (tmpCooldown, tmpCategoryId, tmpCategoryCooldown)

namespace CooldownMods

/-- The modifiers of the mod owner. -/
def spellMods (mods : CooldownMods) (spellInfo : SpellInfo) (cooldown categoryCooldown : Int32) :
    Int32 × Int32 :=
  match mods.applySpellMod with
  | none => (cooldown, categoryCooldown)
  | some apply =>
    (if 0 ≤ cooldown then apply cooldown else cooldown,
      if 0 ≤ categoryCooldown ∧ !spellInfo.noCategoryCooldownMods then apply categoryCooldown
      else categoryCooldown)

/-- The modifiers of the owner's auras on all of its spells. -/
def auras (mods : CooldownMods) (cooldown categoryCooldown : Int32) : Int32 × Int32 :=
  let (cooldown, categoryCooldown) := match mods.byHaste with
    | none => (cooldown, categoryCooldown)
    | some haste => (haste cooldown, haste categoryCooldown)
  (if mods.cooldownMod ≠ 0 ∧ mods.ownSpell then cooldown + mods.cooldownMod * 1000 else cooldown,
    categoryCooldown)

/-- A category cooldown given in days lasts until a daily reset. -/
def inDays (mods : CooldownMods) (categoryCooldown : Int32) : Int32 :=
  let days : UInt32 := (max (categoryCooldown / 1000 - 1) 0).toUInt32
  categoryCooldown + Int32.ofInt ((days * 24).toNat * 3600000) + Int32.ofInt mods.untilDailyReset

/-- The modifiers of a category. -/
def categoryMods (mods : CooldownMods) (categoryId : UInt32) (cooldown categoryCooldown : Int32) :
    Except Fault (Int32 × Int32) :=
  if categoryId = 0 then .ok (cooldown, categoryCooldown)
  else
    let modifier := mods.categoryModifier categoryId
    let cooldown := if modifier ≠ 0 ∧ 0 < cooldown then cooldown + modifier else cooldown
    let categoryCooldown :=
      if modifier ≠ 0 ∧ 0 < categoryCooldown then categoryCooldown + modifier
      else categoryCooldown
    match mods.cooldownInDays categoryId with
    | none => .error .assertion
    | some true => .ok (cooldown, mods.inDays categoryCooldown)
    | some false => .ok (cooldown, categoryCooldown)

end CooldownMods

/-- The entry `StartCooldown` adds, if it adds one. -/
def startedCooldown (data : GameData) (curTime : Time) (spellInfo : SpellInfo) (itemId : UInt32)
    (mods : CooldownMods) (onHold : Bool) : Except Fault (Option CooldownEntry) :=
  let (cooldown, categoryId, categoryCooldown) := getCooldownDurations data spellInfo itemId
  let entry (recTime catrecTime : Time) : Option CooldownEntry :=
    if recTime = curTime then none
    else some
      { spellId := spellInfo.id
        cooldownEnd := recTime
        itemId := itemId
        categoryId := categoryId
        categoryEnd := catrecTime
        onHold := onHold }
  if onHold then
    let catrecTime := if 0 < categoryCooldown then curTime + infinityCooldownDelay else curTime
    .ok (entry (if 0 < cooldown then curTime + infinityCooldownDelay else catrecTime) catrecTime)
  else
    let (cooldown, categoryCooldown) := mods.spellMods spellInfo cooldown categoryCooldown
    let (cooldown, categoryCooldown) := mods.auras cooldown categoryCooldown
    match mods.categoryMods categoryId cooldown categoryCooldown with
    | .error fault => .error fault
    | .ok (cooldown, categoryCooldown) =>
      let cooldown := if cooldown < 0 then 0 else cooldown
      let categoryCooldown := if categoryCooldown < 0 then 0 else categoryCooldown
      if cooldown = 0 ∧ categoryCooldown = 0 then .ok none
      else
        let catrecTime :=
          if categoryCooldown ≠ 0 then curTime + milliseconds categoryCooldown.toInt else curTime
        .ok (entry (if cooldown ≠ 0 then curTime + milliseconds cooldown.toInt else catrecTime)
          catrecTime)

/-- A row of the cooldown tables, with the times in seconds. -/
structure CooldownRow where
  spell : UInt32
  item : UInt32
  time : UInt32
  categoryId : UInt32
  categoryEnd : UInt32
  deriving DecidableEq, Repr

/-- The spells of the owner, as the `std::set` in `LockSpellSchool` orders them. -/
def Owner.knownSpells (owner : Owner) : List UInt32 :=
  let spells : List UInt32 := match owner with
    | .player spells => (spells.filter fun p => !p.2).map Prod.fst
    | .pet spells => (spells.filter fun p => !p.2).map Prod.fst
    | .creature spells => spells.filter (· ≠ 0)
  spells.dedup.insertionSort (· ≤ ·)

namespace SpellHistory

/-- `AddCooldown`. -/
def addCooldown (h : SpellHistory) (spellId itemId : UInt32) (cooldownEnd : Time)
    (categoryId : UInt32) (categoryEnd : Time) (onHold : Bool) : SpellHistory :=
  let spellCooldowns := h.spellCooldowns.write spellId
    { spellId := spellId
      cooldownEnd := cooldownEnd
      itemId := itemId
      categoryId := categoryId
      categoryEnd := categoryEnd
      onHold := onHold }
  { h with
    spellCooldowns := spellCooldowns
    categoryCooldowns :=
      if categoryId ≠ 0 then
        h.categoryCooldowns.insert categoryId (spellCooldowns.refOf spellId)
      else h.categoryCooldowns }

variable (data : GameData)

/-- `StartCooldown`. -/
def startCooldown (curTime : Time) (h : SpellHistory) (spellInfo : SpellInfo)
    (itemId : UInt32) (mods : CooldownMods) (onHold : Bool) : Except Fault SpellHistory :=
  match startedCooldown data curTime spellInfo itemId mods onHold with
  | .error fault => .error fault
  | .ok none => .ok h
  | .ok (some e) =>
    .ok (h.addCooldown e.spellId e.itemId e.cooldownEnd e.categoryId e.categoryEnd e.onHold)

/-- `EraseCooldown`, of the entry under a key if there is one. -/
def eraseCooldown (h : SpellHistory) (spellId : UInt32) : SpellHistory :=
  match h.spellCooldowns.find spellId with
  | none => h
  | some node =>
    { h with
      categoryCooldowns := h.categoryCooldowns.erase node.value.categoryId
      spellCooldowns := h.spellCooldowns.erase spellId }

/-- `ModifyCooldown`. -/
def modifyCooldown (now : Time) (h : SpellHistory) (spellId : UInt32) (cooldownModMs : Int32) :
    SpellHistory :=
  match h.spellCooldowns.find spellId with
  | none => h
  | some node =>
    if cooldownModMs = 0 then h
    else
      let offset := milliseconds cooldownModMs.toInt
      if now < node.value.cooldownEnd + offset then
        { h with
          spellCooldowns := h.spellCooldowns.write spellId
            { node.value with cooldownEnd := node.value.cooldownEnd + offset } }
      else h.eraseCooldown spellId

/-- `ResetCooldown`. -/
def resetCooldown (h : SpellHistory) (spellId : UInt32) : SpellHistory := h.eraseCooldown spellId

/-- One round of `ResetCooldowns`. -/
def resetIf (predicate : UInt32 → CooldownEntry → Bool) (h : SpellHistory) (spellId : UInt32) :
    SpellHistory :=
  match h.spellCooldowns.find spellId with
  | none => h
  | some node => if predicate spellId node.value then h.resetCooldown spellId else h

/-- `ResetCooldowns`. -/
def resetCooldowns (h : SpellHistory) (predicate : UInt32 → CooldownEntry → Bool) :
    SpellHistory := h.spellCooldowns.keys.foldl (resetIf predicate) h

/-- `ResetAllCooldowns`. -/
def resetAllCooldowns (h : SpellHistory) : SpellHistory :=
  { h with categoryCooldowns := ∅, spellCooldowns := h.spellCooldowns.clear }

/-- One round of the first loop of `Update`. -/
def updateCategory (now : Time) (h : SpellHistory) (categoryId : UInt32) :
    Except Fault SpellHistory :=
  match h.categoryCooldowns.lookup categoryId with
  | none => .ok h
  | some ref =>
    match h.spellCooldowns.deref ref with
    | none => .error .dangling
    | some e =>
      .ok (if e.categoryEnd < now then
        { h with categoryCooldowns := h.categoryCooldowns.erase categoryId } else h)

/-- `Update`. Its second loop erases what has ended. -/
def update (now : Time) (h : SpellHistory) : Except Fault SpellHistory :=
  match h.categoryCooldowns.keys.foldlM (updateCategory now) h with
  | .error fault => .error fault
  | .ok h => .ok (h.resetCooldowns fun _ e => e.cooldownEnd < now)

/-- The milliseconds until a time, as a `uint32`. -/
def remainingUntil (now ends : Time) : UInt32 :=
  if ends < now then 0 else UInt32.ofNat ((ends - now) / 1000000).toNat

/-- `GetRemainingCooldown`, with category cooldowns. -/
def getRemainingCooldown (now : Time) (h : SpellHistory) (spellInfo : SpellInfo) :
    Except Fault UInt32 :=
  match h.spellCooldowns.find spellInfo.id with
  | some node => .ok (remainingUntil now node.value.cooldownEnd)
  | none =>
    match h.categoryCooldowns.lookup spellInfo.category with
    | none => .ok 0
    | some ref =>
      match h.spellCooldowns.deref ref with
      | none => .error .dangling
      | some e => .ok (remainingUntil now e.categoryEnd)

/-- `GetRemainingCooldown`, without category cooldowns. -/
def getRemainingSpellCooldown (now : Time) (h : SpellHistory) (spellInfo : SpellInfo) : UInt32 :=
  match h.spellCooldowns.find spellInfo.id with
  | some node => remainingUntil now node.value.cooldownEnd
  | none => 0

/-- `GetRemainingCategoryCooldown`. -/
def getRemainingCategoryCooldown (now : Time) (h : SpellHistory) (spellInfo : SpellInfo) :
    Except Fault UInt32 :=
  match h.categoryCooldowns.lookup spellInfo.category with
  | none => .ok 0
  | some ref =>
    match h.spellCooldowns.deref ref with
    | none => .error .dangling
    | some e => .ok (remainingUntil now e.categoryEnd)

/-- `HasCooldown`, with category cooldowns. -/
def hasCooldown (h : SpellHistory) (spellInfo : SpellInfo) (itemId : UInt32) : Bool :=
  if (h.spellCooldowns.find spellInfo.id).isSome then true
  else
    let (_, category, _) := getCooldownDurations data spellInfo itemId
    category != 0 && (h.categoryCooldowns.lookup category).isSome

/-- One round of the spell loop of `LockSpellSchool`. -/
def lockSpell (now : Time) (schoolMask lockoutTime : UInt32) (h : SpellHistory)
    (spellId : UInt32) : Except Fault SpellHistory :=
  match data.getSpellInfo spellId with
  | none => .error .assertion
  | some spellInfo =>
    if !spellInfo.silencedBy schoolMask then .ok h
    else
      match h.getRemainingCooldown now spellInfo with
      | .error fault => .error fault
      | .ok remaining =>
        .ok (if remaining < lockoutTime then
          h.addCooldown spellId 0 (now + milliseconds lockoutTime.toNat) 0 now false else h)

/-- `LockSpellSchool`. -/
def lockSpellSchool (now : Time) (h : SpellHistory)
    (schoolMask lockoutTime : UInt32) (owner : Owner) : Except Fault SpellHistory :=
  owner.knownSpells.foldlM (lockSpell data now schoolMask lockoutTime)
    { h with
      schoolLockouts := fun i =>
        if (1 <<< UInt32.ofNat i.val) &&& schoolMask ≠ 0 then
          now + milliseconds lockoutTime.toNat
        else h.schoolLockouts i }

/-- One round of the loop of `LoadFromDB`, which stores what `AddCooldown` would. Rows of
pets have no item. -/
def loadRow (h : SpellHistory) (row : CooldownRow) : SpellHistory :=
  match data.getSpellInfo row.spell with
  | none => h
  | some _ =>
    h.addCooldown row.spell row.item (seconds row.time.toNat) row.categoryId
      (seconds row.categoryEnd.toNat) false

/-- `LoadFromDB`. -/
def loadFromDB (h : SpellHistory) (rows : List CooldownRow) : SpellHistory :=
  rows.foldl (loadRow data) h

/-- `SaveCooldownStateBeforeDuel`. -/
def saveCooldownStateBeforeDuel (h : SpellHistory) : SpellHistory :=
  { h with spellCooldownsBeforeDuel := h.spellCooldowns.values }

/-- One round of the first loop of `RestoreCooldownStateAfterDuel`. -/
def keepProfession (h : SpellHistory) (spellId : UInt32) : Except Fault SpellHistory :=
  match data.getSpellInfo spellId with
  | none => .error .assertion
  | some spellInfo =>
    match h.spellCooldowns.find spellId with
    | none => .ok h
    | some node =>
      .ok (if spellInfo.isProfession then
        { h with
          spellCooldownsBeforeDuel := h.spellCooldownsBeforeDuel.insert spellId node.value }
      else h)

/-- One round of its second loop. -/
def restoreSaved (h : SpellHistory) (spellId : UInt32) : SpellHistory :=
  match h.spellCooldownsBeforeDuel.lookup spellId, h.spellCooldowns.find spellId with
  | some saved, some node =>
    if !saved.onHold && !node.value.onHold then
      { h with spellCooldowns := h.spellCooldowns.write spellId saved }
    else h
  | _, _ => h

/-- `RestoreCooldownStateAfterDuel`. -/
def restoreCooldownStateAfterDuel (h : SpellHistory) (owner : Owner) : Except Fault SpellHistory :=
  match owner with
  | .player _ =>
    match h.spellCooldowns.keys.foldlM (keepProfession data) h with
    | .error fault => .error fault
    | .ok h => .ok (h.spellCooldownsBeforeDuel.keys.foldl restoreSaved h)
  | _ => .ok h

end SpellHistory

/-- An operation on the history. -/
inductive Op
  | addCooldown (spellId itemId : UInt32) (cooldownEnd : Time) (categoryId : UInt32)
      (categoryEnd : Time) (onHold : Bool)
  | startCooldown (spellInfo : SpellInfo) (itemId : UInt32) (mods : CooldownMods) (onHold : Bool)
  | lockSpellSchool (schoolMask lockoutTime : UInt32) (owner : Owner)
  | modifyCooldown (spellId : UInt32) (cooldownModMs : Int32)
  | resetCooldown (spellId : UInt32)
  | resetCooldowns (predicate : UInt32 → CooldownEntry → Bool)
  | resetAllCooldowns
  | update
  | loadFromDB (rows : List CooldownRow)
  | saveCooldownStateBeforeDuel
  | restoreCooldownStateAfterDuel (owner : Owner)

/-- An operation at a time. -/
def Op.run (data : GameData) (now : Time) (h : SpellHistory) : Op → Except Fault SpellHistory
  | .addCooldown spellId itemId cooldownEnd categoryId categoryEnd onHold =>
    .ok (h.addCooldown spellId itemId cooldownEnd categoryId categoryEnd onHold)
  | .startCooldown spellInfo itemId mods onHold =>
    h.startCooldown data now spellInfo itemId mods onHold
  | .lockSpellSchool schoolMask lockoutTime owner =>
    h.lockSpellSchool data now schoolMask lockoutTime owner
  | .modifyCooldown spellId cooldownModMs => .ok (h.modifyCooldown now spellId cooldownModMs)
  | .resetCooldown spellId => .ok (h.resetCooldown spellId)
  | .resetCooldowns predicate => .ok (h.resetCooldowns predicate)
  | .resetAllCooldowns => .ok h.resetAllCooldowns
  | .update => h.update now
  | .loadFromDB rows => .ok (h.loadFromDB data rows)
  | .saveCooldownStateBeforeDuel => .ok h.saveCooldownStateBeforeDuel
  | .restoreCooldownStateAfterDuel owner => h.restoreCooldownStateAfterDuel data owner

/-- A step of a run: the next operation, if no fault has ended the run. -/
def step (data : GameData) : Except Fault SpellHistory → Time × Op → Except Fault SpellHistory
  | .error fault, _ => .error fault
  | .ok h, (now, op) => op.run data now h

end TrinityCore.Spells
