import TrinityCore.Entities.PlayerMoney

/-!
# Trade data

The offers of two players that trade with each other, as `TradeData.cpp` keeps them: item guids that
are looked up in the inventory whenever the item is needed, money and a spell, a flag for each side
that has accepted and a random number that a change of the offer replaces.
-/

namespace TrinityCore.Trading

open Entities Function

def TRADE_SLOT_COUNT : Nat := 7
def TRADE_SLOT_TRADED_COUNT : Nat := 6
def TRADE_SLOT_NONTRADED : Nat := 6

/-- One of the two players. -/
inductive Side
  | initiator
  | partner
  deriving DecidableEq, Repr

def Side.other : Side → Side
  | initiator => partner
  | partner => initiator

/-- What decides whether an item may be traded, and with whom: `allowedGUIDs` are the players that
may still be given a bound item. -/
structure ItemFlags where
  lootGenerated : Bool
  soulBound : Bool
  bopTradeable : Bool
  boundAccountWide : Bool
  bagInUse : Bool
  canUnequip : Bool
  looted : Bool
  boundByEnchant : Bool
  allowedGuids : List Side
  deriving DecidableEq, Repr

structure TradeItem where
  guid : Nat
  count : Nat
  owner : Side
  flags : ItemFlags
  deriving DecidableEq, Repr

namespace TradeItem

/-- `CanBeTraded`, for a trade. -/
def canBeTraded (item : TradeItem) : Bool :=
  !item.flags.lootGenerated && !(item.flags.soulBound && !item.flags.bopTradeable) &&
    !item.flags.bagInUse && item.flags.canUnequip && !item.flags.looted &&
    !item.flags.boundByEnchant

/-- `IsBindedNotWith`. -/
def isBindedNotWith (item : TradeItem) (player : Side) : Bool :=
  item.flags.soulBound && item.owner ≠ player &&
    !(item.flags.bopTradeable && item.flags.allowedGuids.contains player) &&
    !item.flags.boundAccountWide

end TradeItem

/-- `TradeData`: one side's offer. -/
structure TradeData where
  accepted : Bool := false
  money : Nat := 0
  spell : Nat := 0
  spellCastItem : Option Nat := none
  items : Nat → Option Nat := fun _ => none
  clientStateIndex : Nat := 1
  serverStateIndex : Nat := 1

namespace TradeData

/-- `HasItem`. -/
def hasItem (data : TradeData) (guid : Nat) : Bool :=
  (List.range TRADE_SLOT_COUNT).any fun slot => data.items slot = some guid

/-- `GetTradeSlotForItem`. -/
def getTradeSlotForItem (data : TradeData) (guid : Nat) : Option Nat :=
  (List.range TRADE_SLOT_COUNT).find? fun slot => data.items slot = some guid

end TradeData

/-- What the partner sees of an offer: the money, the spell, and guid and count of the items. -/
structure Offer where
  gold : Nat
  proposedEnchantment : Nat
  items : Nat → Option (Nat × Nat)

/-- What happened in a trade: one of the offers changed, or a side accepted, naming a state of the
other side when that had its current one. -/
inductive LogEntry
  | change (side : Side)
  | accept (side : Side) (stateIndex current : Nat)
  deriving DecidableEq, Repr

/-- A trade with the inventories and the money of its players, by guid and by side. What each side
was shown of the other and what happened so far is history that nothing reads. -/
structure TradeState where
  active : Bool
  data : Side → TradeData
  inventory : Side → Nat → Option TradeItem
  money : Side → Nat
  rands : Nat
  shown : Side → Offer
  log : List LogEntry

namespace TradeState

variable (rand32 : Nat → Nat) (s : TradeState)

variable (side : Side)

/-- `GetItem`: the item of a slot, if the player still has it. -/
def getItem (slot : Nat) : Option TradeItem :=
  ((s.data side).items slot).bind (s.inventory side)

/-- `SetAccepted`. -/
def setAccepted (state : Bool) : TradeState :=
  { s with data := update s.data side { s.data side with accepted := state } }

/-- `SendUpdateTrade` of one side's offer to the other side. -/
def sendUpdateTrade : TradeState :=
  let offer : Offer :=
    { gold := (s.data side).money
      proposedEnchantment := (s.data side).spell
      items := fun slot =>
        if slot < TRADE_SLOT_COUNT then
          (s.getItem side slot).map fun item => (item.guid, item.count)
        else none }
  { s with shown := update s.shown side offer }

/-- `UpdateServerStateIndex`. -/
def updateServerStateIndex : TradeState :=
  { s with
    data := update s.data side
      { s.data side with serverStateIndex := rand32 s.rands }
    rands := s.rands + 1 }

/-- `UpdateClientStateIndex`. -/
def updateClientStateIndex : TradeState :=
  { s with
    data := update s.data side
      { s.data side with clientStateIndex := ((s.data side).clientStateIndex + 1) % 2 ^ 32 } }

/-- What every change of an offer does. -/
def changeOffer (change : TradeData → TradeData) : TradeState :=
  let s := { s with
    data := update s.data side (change (s.data side))
    log := s.log ++ [LogEntry.change side] }
  let s := (s.setAccepted side false).setAccepted side.other false
  (s.updateServerStateIndex rand32 side).sendUpdateTrade side

/-- `SetSpell`. -/
def setSpell (spellId : Nat) (castItem : Option Nat) : TradeState :=
  if (s.data side).spell = spellId ∧ (s.data side).spellCastItem = castItem then s
  else s.changeOffer rand32 side fun data => { data with spell := spellId, spellCastItem := castItem }

/-- `SetItem`. A spell that is to be cast on the item is taken back. -/
def setItem (slot : Nat) (itemGuid : Option Nat) (update : Bool) : TradeState :=
  if (s.data side).items slot = itemGuid ∧ !update then s
  else
    let s := s.changeOffer rand32 side fun data =>
      { data with items := Function.update data.items slot itemGuid }
    let s := if slot = TRADE_SLOT_NONTRADED then s.setSpell rand32 side.other 0 none else s
    s.setSpell rand32 side 0 none

/-- `SetMoney`. -/
def setMoney (money : Nat) : TradeState :=
  if (s.data side).money = money then s
  else if !hasEnoughMoney (s.money side) money then s
  else s.changeOffer rand32 side fun data => { data with money }

end TradeState

end TrinityCore.Trading
