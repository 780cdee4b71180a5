import TrinityCore.Entities.ObjectGuid
import TrinityCore.Lib.CountedMap

/-!
# Loot rolls of a group

`Group::GroupLoot`, `Group::NeedBeforeGreed`, `Group::CountRollVote`, `Group::CountTheRoll` and
the part of `Group::RemoveMember` about loot rolls. The pending rolls are the vector `RollId`;
every roll keeps a map of votes and four eight-bit counters beside it. Item GUIDs come from the
generator of the object manager and are named by its counter.
-/

namespace TrinityCore.Groups

/-- `RollVote`. -/
inductive RollVote
  | PASS
  | NEED
  | GREED
  | DISENCHANT
  | NOT_EMITED_YET
  | NOT_VALID
  deriving DecidableEq, Repr, Inhabited

/-- `RollType`, as the byte a client sends. -/
def ROLL_PASS : UInt8 := 0
def ROLL_NEED : UInt8 := 1
def ROLL_GREED : UInt8 := 2
def ROLL_DISENCHANT : UInt8 := 3
def MAX_ROLL_TYPE : UInt8 := 4

/-- `MAXRAIDSIZE`: `AddMember` finds no free subgroup beyond it. -/
def MAXRAIDSIZE : Nat := 40

/-- `Roll::PlayerVote`. -/
abbrev PlayerVote := AList fun _ : ObjectGuid => RollVote

/-- `Roll`, less what describes the item. -/
structure Roll where
  itemGUID : Nat
  playerVote : PlayerVote := ∅
  totalPlayersRolling : UInt8 := 0
  totalNeed : UInt8 := 0
  totalGreed : UInt8 := 0
  totalPass : UInt8 := 0

/-- `LootItem`, what the rolls read of it. -/
structure LootItem where
  itemid : UInt32
  freeforall : Bool := false
  follow_loot_rules : Bool := false
  deriving DecidableEq, Repr

/-- `ItemTemplate`, what the rolls read of it. -/
structure ItemTemplate where
  quality : UInt32
  maxCount : UInt32 := 0
  deriving Repr

/-- `Loot`. -/
structure Loot where
  items : List LootItem
  quest_items : List LootItem := []

/-- The players of the group's reference list. Each links one reference to it. -/
structure Members where
  guids : List ObjectGuid
  nodup : guids.Nodup
  size_le : guids.length ≤ MAXRAIDSIZE

/-- What the creation of rolls asks the world for. -/
structure Surroundings where
  members : Members
  lootThreshold : UInt32
  getItemTemplate : UInt32 → Option ItemTemplate
  /-- The member is loaded and has a session. -/
  getSession : ObjectGuid → Bool
  isAtGroupRewardDistance : ObjectGuid → Bool
  getPassOnGroupLoot : ObjectGuid → Bool
  getItemCount : ObjectGuid → UInt32 → UInt32
  /-- `LootItem::AllowedForPlayer`. -/
  allowedForPlayer : LootItem → ObjectGuid → Bool

/-- What a roll's reference to its loot says when a vote is counted. -/
structure LootRef where
  /-- `Roll::isValid`: the loot still exists. -/
  isValid : Bool
  itemsEmpty : Bool

/-- `CanRollOnItem`. -/
def CanRollOnItem (v : Surroundings) (item : LootItem) (player : ObjectGuid) : Bool :=
  match v.getItemTemplate item.itemid with
  | none => false
  | some proto =>
    if proto.maxCount > 0 ∧ v.getItemCount player item.itemid ≥ proto.maxCount then false
    else v.allowedForPlayer item player

/-- A connected member close enough to share the loot. -/
def Surroundings.inReach (v : Surroundings) (member : ObjectGuid) : Bool :=
  v.getSession member && v.isAtGroupRewardDistance member

namespace Roll

/-- Enter a member into the roll, with a vote and what it adds to `totalPass`. -/
def enter (r : Roll) (member : ObjectGuid) (vote : RollVote) (pass : UInt8) : Roll :=
  { r with
    totalPlayersRolling := r.totalPlayersRolling + 1
    playerVote := r.playerVote.insert member vote
    totalPass := r.totalPass + pass }

/-- The loop of `GroupLoot` over the members, for an item above the threshold. -/
def enterGroupLoot (v : Surroundings) (item : LootItem) (r : Roll) (member : ObjectGuid) : Roll :=
  if v.inReach member then
    let vote := if v.getPassOnGroupLoot member then .PASS else .NOT_EMITED_YET
    -- only the pass forced here is counted, not the one the player set
    if !CanRollOnItem v item member then r.enter member .PASS 1 else r.enter member vote 0
  else r

/-- The loop of `NeedBeforeGreed` over the members, for an item above the threshold. -/
def enterNeedBeforeGreed (v : Surroundings) (item : LootItem) (r : Roll) (member : ObjectGuid) :
    Roll :=
  if v.inReach member && v.allowedForPlayer item member then
    if v.getPassOnGroupLoot member then r.enter member .PASS 1
    else r.enter member .NOT_EMITED_YET 0
  else r

/-- The loop over the members for a quest item, the same in both. -/
def enterQuest (v : Surroundings) (item : LootItem) (r : Roll) (member : ObjectGuid) : Roll :=
  if v.inReach member && v.allowedForPlayer item member then r.enter member .NOT_EMITED_YET 0
  else r

/-- The switch of `CountRollVote`. -/
def castVote (r : Roll) (player : ObjectGuid) (choice : UInt8) : Roll :=
  if choice = ROLL_PASS then
    { r with totalPass := r.totalPass + 1, playerVote := r.playerVote.insert player .PASS }
  else if choice = ROLL_NEED then
    { r with totalNeed := r.totalNeed + 1, playerVote := r.playerVote.insert player .NEED }
  else if choice = ROLL_GREED then
    { r with totalGreed := r.totalGreed + 1, playerVote := r.playerVote.insert player .GREED }
  else if choice = ROLL_DISENCHANT then
    { r with totalGreed := r.totalGreed + 1, playerVote := r.playerVote.insert player .DISENCHANT }
  else r

/-- Whether the counters say that everyone has voted. The sum is taken as an `int`. -/
def allVoted (r : Roll) : Bool :=
  r.totalPass.toNat + r.totalNeed.toNat + r.totalGreed.toNat ≥ r.totalPlayersRolling.toNat

/-- What `RemoveMember` does to a roll in which the player has the vote. -/
def removeVoter (r : Roll) (player : ObjectGuid) (vote : RollVote) : Roll :=
  let r := if vote = .GREED ∨ vote = .DISENCHANT then { r with totalGreed := r.totalGreed - 1 }
    else if vote = .NEED then { r with totalNeed := r.totalNeed - 1 }
    else if vote = .PASS then { r with totalPass := r.totalPass - 1 }
    else r
  let r := if vote ≠ .NOT_VALID then { r with totalPlayersRolling := r.totalPlayersRolling - 1 }
    else r
  { r with playerVote := r.playerVote.erase player }

end Roll

/-- The group, as far as rolls go. -/
structure Group where
  /-- `RollId`. -/
  rolls : List Roll := []
  nextItemGUID : Nat := 0

namespace Group

variable (g : Group)

/-- A new item GUID; the roll for it is kept when someone is in it. -/
def startRoll (members : Members) (enter : Roll → ObjectGuid → Roll) : Group :=
  let r := members.guids.foldl enter { itemGUID := g.nextItemGUID }
  { g with
    nextItemGUID := g.nextItemGUID + 1
    rolls := if r.totalPlayersRolling > 0 then g.rolls ++ [r] else g.rolls }

variable (v : Surroundings)

/-- One item of the first loop of `GroupLoot`. -/
def groupLootItem (g : Group) (item : LootItem) : Group :=
  if item.freeforall then g
  else match v.getItemTemplate item.itemid with
    | none => g
    | some proto =>
      if proto.quality ≥ v.lootThreshold then g.startRoll v.members (Roll.enterGroupLoot v item)
      else g

/-- One item of the second loop of `GroupLoot`. -/
def groupLootQuestItem (g : Group) (item : LootItem) : Group :=
  if !item.follow_loot_rules then g
  else match v.getItemTemplate item.itemid with
    | none => g
    | some _ => g.startRoll v.members (Roll.enterQuest v item)

/-- `Group::GroupLoot`. -/
def groupLoot (loot : Loot) : Group :=
  loot.quest_items.foldl (groupLootQuestItem v) (loot.items.foldl (groupLootItem v) g)

/-- One item of the first loop of `NeedBeforeGreed`. An item without a template, through which
the source would read a null pointer, is left out. -/
def needBeforeGreedItem (g : Group) (item : LootItem) : Group :=
  if item.freeforall then g
  else match v.getItemTemplate item.itemid with
    | none => g
    | some proto =>
      if proto.quality ≥ v.lootThreshold then
        g.startRoll v.members (Roll.enterNeedBeforeGreed v item)
      else g

/-- One item of the second loop of `NeedBeforeGreed`, which does not test the template. -/
def needBeforeGreedQuestItem (g : Group) (item : LootItem) : Group :=
  if !item.follow_loot_rules then g else g.startRoll v.members (Roll.enterQuest v item)

/-- `Group::NeedBeforeGreed`. -/
def needBeforeGreed (loot : Loot) : Group :=
  loot.quest_items.foldl (needBeforeGreedQuestItem v) (loot.items.foldl (needBeforeGreedItem v) g)

/-- `Group::GetRoll`, for a roll whose loot reference is as given. -/
def getRoll (loot : LootRef) (guid : Nat) : Option Roll :=
  g.rolls.find? fun r => loot.isValid && r.itemGUID == guid

/-- A write through the pointer to the roll of that item. -/
def setRoll (roll : Roll) : Group :=
  { g with rolls := g.rolls.map fun r => if r.itemGUID = roll.itemGUID then roll else r }

/-- `Group::CountTheRoll`, as far as the pending rolls go: whoever wins, and also when the loot
is gone, the roll is erased. -/
def countTheRoll (guid : Nat) : Group :=
  { g with rolls := g.rolls.eraseP (·.itemGUID == guid) }

/-- `Group::CountRollVote`. -/
def countRollVote (playerGUID : ObjectGuid) (guid : Nat) (choice : UInt8)
    (loot : LootRef) : Group :=
  match g.getRoll loot guid with
  | none => g
  | some roll =>
    match roll.playerVote.lookup playerGUID with
    | none => g
    | some _ =>
      if loot.isValid && loot.itemsEmpty then g
      else
        let roll := roll.castVote playerGUID choice
        if roll.allVoted then g.countTheRoll guid else g.setRoll roll

/-- One round of the loop of `RemoveMember` over the rolls. -/
def removeFromRoll (player : ObjectGuid) (loot : Nat → LootRef) (g : Group) (guid : Nat) :
    Group :=
  match g.rolls.find? (·.itemGUID == guid) with
  | none => g
  | some roll =>
    match roll.playerVote.lookup player with
    | none => g
    | some vote =>
      -- the vote counted below no longer finds the entry erased here
      (g.setRoll (roll.removeVoter player vote)).countRollVote player guid MAX_ROLL_TYPE
        (loot guid)

/-- `Group::RemoveMember`, its loop over the rolls, in a group that is not disbanded. -/
def removeMember (player : ObjectGuid) (loot : Nat → LootRef) : Group :=
  (g.rolls.map Roll.itemGUID).foldl (removeFromRoll player loot) g

end Group

/-- What is called on the group, with what the world answers. -/
inductive RollEvent
  | groupLoot (v : Surroundings) (loot : Loot)
  | needBeforeGreed (v : Surroundings) (loot : Loot)
  | countRollVote (player : ObjectGuid) (guid : Nat) (choice : UInt8) (loot : LootRef)
  | removeMember (player : ObjectGuid) (loot : Nat → LootRef)

/-- One call. -/
def Group.step (g : Group) : RollEvent → Group
  | .groupLoot v loot => g.groupLoot v loot
  | .needBeforeGreed v loot => g.needBeforeGreed v loot
  | .countRollVote player guid choice loot => g.countRollVote player guid choice loot
  | .removeMember player loot => g.removeMember player loot

end TrinityCore.Groups
