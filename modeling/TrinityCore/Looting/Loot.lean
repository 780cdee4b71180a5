import TrinityCore.Entities.ObjectGuid

/-!
# Loot

`Loot::AddItem` and the lists it fills, of `Loot.cpp` and `Loot.h`. The random properties of an
item and the lists of what each player sees of the loot are left out. The count of an entry has
eight bits.
-/

namespace TrinityCore.Looting

/-- `MAX_NR_LOOT_ITEMS`. -/
def MAX_NR_LOOT_ITEMS : UInt32 := 18

/-- `MAX_NR_QUEST_ITEMS`. -/
def MAX_NR_QUEST_ITEMS : UInt32 := 32

/-- `LootStoreItem`; a condition is named by a number. -/
structure LootStoreItem where
  itemid : UInt32
  needs_quest : Bool := false
  is_currency : Bool := false
  mincount : UInt8 := 1
  maxcount : UInt8 := 1
  conditions : List Nat := []
  deriving DecidableEq, Repr

/-- `LootItem`. -/
structure LootItem where
  itemid : UInt32 := 0
  itemIndex : UInt32 := 0
  conditions : List Nat := []
  rollWinnerGUID : ObjectGuid := 0
  count : UInt8 := 0
  is_looted : Bool := false
  is_blocked : Bool := false
  freeforall : Bool := false
  needs_quest : Bool := false
  is_currency : Bool := false
  follow_loot_rules : Bool := false
  deriving DecidableEq, Repr, Inhabited

/-- `Loot`. -/
structure Loot where
  items : List LootItem := []
  quest_items : List LootItem := []
  unlootedCount : UInt8 := 0
  lootOwnerGUID : ObjectGuid := 0
  deriving DecidableEq, Repr

/-- `ItemTemplate`, what `AddItem` reads of it. -/
structure ItemTemplate where
  /-- `ExtendedData->Stackable`. -/
  stackable : Int32 := 1
  /-- `ITEM_FLAG_MULTI_DROP`. -/
  multiDrop : Bool := false
  /-- `ITEM_FLAGS_CU_FOLLOW_LOOT_RULES`. -/
  followLootRules : Bool := false
  deriving Repr

/-- `GetMaxStackSize`. -/
def ItemTemplate.getMaxStackSize (proto : ItemTemplate) : UInt32 :=
  if proto.stackable = 2147483647 ∨ proto.stackable ≤ 0 then 0x7FFFFFFF - 1
  else proto.stackable.toUInt32

/-- `CurrencyTypesEntry`, what `AddItem` reads of it. -/
structure CurrencyTypesEntry where
  categoryID : UInt32 := 0
  maxQty : UInt32
  deriving Repr

/-- A player found in the world, with the members of the group it is in. -/
structure LootOwner where
  group : Option (List ObjectGuid) := none
  /-- `SPELL_AURA_MOD_CURRENCY_CATEGORY_GAIN_PCT`, as what it makes of a count. -/
  currencyGain : UInt32 → UInt32 → UInt32 := fun _ count => count

/-- What `AddItem` asks the stores and the world for. -/
structure LootWorld where
  getItemTemplate : UInt32 → Option ItemTemplate
  lookupCurrency : UInt32 → Option CurrencyTypesEntry
  /-- `ObjectAccessor::FindPlayer`. -/
  findPlayer : ObjectGuid → Option LootOwner
  /-- `LootItem::AllowedForPlayer`. -/
  allowedForPlayer : LootItem → ObjectGuid → Bool

/-- The constructor of `LootItem` from a `LootStoreItem`. -/
def LootItem.ofStore (w : LootWorld) (li : LootStoreItem) : LootItem where
  itemid := li.itemid
  conditions := li.conditions
  is_currency := li.is_currency
  freeforall := !li.is_currency && (w.getItemTemplate li.itemid).any (·.multiDrop)
  follow_loot_rules := !li.is_currency && (w.getItemTemplate li.itemid).any (·.followLootRules)
  needs_quest := li.needs_quest

/-- Some player who may loot sees the item. -/
def LootWorld.canSeeItem (w : LootWorld) (lootOwnerGUID : ObjectGuid) (item : LootItem) : Bool :=
  match w.findPlayer lootOwnerGUID with
  | none => false
  | some player =>
    match player.group with
    | some members => members.any (w.allowedForPlayer item)
    | none => w.allowedForPlayer item lootOwnerGUID

namespace Loot

/-- The list `AddItem` fills: `quest_items` or `items`. -/
def lootItems (loot : Loot) (needs_quest : Bool) : List LootItem :=
  if needs_quest then loot.quest_items else loot.items

/-- Append to that list. -/
def push (loot : Loot) (needs_quest : Bool) (item : LootItem) : Loot :=
  if needs_quest then { loot with quest_items := loot.quest_items ++ [item] }
  else { loot with items := loot.items ++ [item] }

/-- How long the list may get. -/
def limit (needs_quest : Bool) : UInt32 :=
  if needs_quest then MAX_NR_QUEST_ITEMS else MAX_NR_LOOT_ITEMS

/-- The loop of `AddItem`, with the rounds left: entries of at most `cap`. An entry someone sees
is counted as unlooted if `counted`. -/
def addStacks (w : LootWorld) (item : LootStoreItem) (cap : UInt32) (counted : Bool) :
    Nat → UInt32 → Loot → Loot
  | 0, _, loot => loot
  | rounds + 1, count, loot =>
    let size := (loot.lootItems item.needs_quest).length
    if size < (limit item.needs_quest).toNat then
      let generatedLoot := { LootItem.ofStore w item with
        count := (min count cap).toUInt8
        itemIndex := UInt32.ofNat size }
      let loot := loot.push item.needs_quest generatedLoot
      let loot :=
        if w.canSeeItem loot.lootOwnerGUID generatedLoot && counted then
          { loot with unlootedCount := loot.unlootedCount + 1 }
        else loot
      addStacks w item cap counted rounds (count - cap) loot
    else loot

/-- The number of rounds, for a divisor that is not zero. -/
def stackCount (count divisor : UInt32) : UInt32 :=
  count / divisor + if count % divisor ≠ 0 then 1 else 0

/-- `AddItem`, its branch for currencies. -/
def addCurrency (w : LootWorld) (loot : Loot) (item : LootStoreItem) (rolled : UInt32) : Loot :=
  match w.lookupCurrency item.itemid with
  | none => loot
  | some currency =>
    let totalCap := if currency.maxQty > 0 then currency.maxQty else 1
    let count := match w.findPlayer loot.lootOwnerGUID with
      | some player => player.currencyGain currency.categoryID rolled
      | none => rolled
    loot.addStacks w item currency.maxQty (!item.needs_quest) (stackCount count totalCap).toNat count

/-- `AddItem`, where `urand` gave `rolled`. -/
def addItem (w : LootWorld) (loot : Loot) (item : LootStoreItem) (rolled : UInt32) : Loot :=
  if item.is_currency then loot.addCurrency w item rolled
  else
    match w.getItemTemplate item.itemid with
    | none => loot
    | some proto =>
      loot.addStacks w item proto.getMaxStackSize
        (!item.needs_quest && item.conditions.isEmpty && !proto.multiDrop)
        (stackCount rolled proto.getMaxStackSize).toNat rolled

end Loot

end TrinityCore.Looting
