import TrinityCore.Lib.StateMachine
import TrinityCore.Trading.TradeData

/-!
# Trade handlers

The packets of two players that trade with each other, as `TradeHandler.cpp` handles them, and what
happens to their items meanwhile.
-/

namespace TrinityCore.Trading

open Entities Function StateMachine

/-- An accept packet, and what the world answers while it is handled: whether the players are close
enough, whether the spells can be cast, whether a player has room for all items that he gets and for
the one of a slot when its turn comes, and whether he can take his own one back. -/
structure AcceptTrade where
  stateIndex : Nat
  withinDist : Bool := true
  canCast : Side → Bool := fun _ => true
  canStoreItems : Side → Bool := fun _ => true
  canStoreItem : Side → Nat → Bool := fun _ _ => true
  canTakeBack : Side → Nat → Bool := fun _ _ => true

/-- The slots that are traded, in the order in which both loops over them run. -/
def tradedSlots : List (Side × Nat) :=
  (List.range TRADE_SLOT_TRADED_COUNT).flatMap fun slot => [(.initiator, slot), (.partner, slot)]

namespace TradeState

variable (rand32 : Nat → Nat) (s : TradeState)

variable (side : Side)

/-- `HandleSetTradeGoldOpcode`. -/
def handleSetTradeGold (coinage : Nat) : TradeState :=
  if !s.active then s else (s.updateClientStateIndex side).setMoney rand32 side coinage

/-- `HandleSetTradeItemOpcode`, with the guid of the item at the position of the packet. -/
def handleSetTradeItem (tradeSlot : Nat) (guid : Option Nat) : TradeState :=
  if !s.active then s
  else if TRADE_SLOT_COUNT ≤ tradeSlot then s
  else
    match guid.bind (s.inventory side) with
    | none => s
    | some item =>
      if tradeSlot ≠ TRADE_SLOT_NONTRADED ∧ !item.canBeTraded then s
      -- prevent place single item into many trade slots using cheating and client bugs
      else if (s.data side).hasItem item.guid then s
      else
        let s := s.updateClientStateIndex side
        if tradeSlot ≠ TRADE_SLOT_NONTRADED ∧ item.isBindedNotWith side.other then s
        else s.setItem rand32 side tradeSlot (some item.guid) false

/-- `HandleClearTradeItemOpcode`. -/
def handleClearTradeItem (tradeSlot : Nat) : TradeState :=
  if !s.active then s
  else
    let s := s.updateClientStateIndex side
    if TRADE_SLOT_COUNT ≤ tradeSlot then s else s.setItem rand32 side tradeSlot none false

/-- `HandleUnacceptTradeOpcode`. -/
def handleUnacceptTrade : TradeState :=
  if !s.active then s else s.setAccepted side false

/-- `TradeCancel`. -/
def tradeCancel : TradeState := { s with active := false }

/-- The item of a slot that is traded. -/
def tradedItem (slot : Nat) : Option TradeItem :=
  if slot < TRADE_SLOT_TRADED_COUNT then s.getItem side slot else none

/-- The money would be more than a player can have. -/
def tooMuchGold : Bool :=
  (MAX_MONEY_AMOUNT + 2 ^ 64 - (s.data side.other).money) % 2 ^ 64 < s.money side

/-- Whether all items can be traded now. Of those of the other side it is left to `CanStoreItems`
whether they are bound. -/
def itemsTradeable : Bool :=
  (List.range TRADE_SLOT_TRADED_COUNT).all fun slot =>
    ((s.getItem side slot).all fun item =>
      item.canBeTraded && !item.isBindedNotWith side.other) &&
    (s.getItem side.other slot).all TradeItem.canBeTraded

/-- Whether the spell of a side can be cast on the item that the other side does not trade. -/
def spellReady (a : AcceptTrade) (side : Side) : Bool :=
  (s.data side).spell = 0 ||
    (s.getItem side.other TRADE_SLOT_NONTRADED).isSome &&
      (s.data side).spellCastItem.all (fun guid => (s.inventory side guid).isSome) &&
      a.canCast side

/-- `CanStoreItems` of the items that a side gets. -/
def canStoreItems (a : AcceptTrade) (side : Side) : Bool :=
  a.canStoreItems side &&
    (List.range TRADE_SLOT_TRADED_COUNT).all fun slot =>
      (s.getItem side.other slot).all fun item =>
        !item.flags.lootGenerated && !item.isBindedNotWith side

/-- Whether both items of a slot can be stored when their turn comes. -/
def canTrade (a : AcceptTrade) (slot : Nat) : Bool :=
  ((s.tradedItem .initiator slot).isNone || a.canStoreItem .partner slot) &&
    ((s.tradedItem .partner slot).isNone || a.canStoreItem .initiator slot)

/-- `MoveItemFromInventory`. -/
def moveItemFromInventory (item : TradeItem) : TradeState :=
  { s with
    inventory := update s.inventory side
      (update (s.inventory side) item.guid none) }

/-- `MoveItemToInventory`. The object is kept, also where it would be merged with another one. -/
def moveItemToInventory (item : TradeItem) : TradeState :=
  { s with
    inventory := update s.inventory side
      (update (s.inventory side) item.guid (some { item with owner := side })) }

/-- The removal of the item of a slot, as it was `before`. -/
def removeItem (before : TradeState) (side : Side) (slot : Nat) (s : TradeState) : TradeState :=
  match before.tradedItem side slot with
  | none => s
  | some item => s.moveItemFromInventory side item

/-- `moveItems` for one slot, whose items both sides have given away: they are stored by the other
side, or both go back. -/
def moveItems (a : AcceptTrade) (before : TradeState) (side : Side) (slot : Nat) (s : TradeState) :
    TradeState :=
  match before.tradedItem side slot with
  | none => s
  | some item =>
    if before.canTrade a slot then s.moveItemToInventory side.other item
    else if a.canTakeBack side slot then s.moveItemToInventory side item
    else s

/-- The money of a player after `ModifyMoney`, whose result the trade does not look at. -/
def modifiedMoney (money : Nat) (amount : Int) : Nat := (modifyMoney money amount).2

/-- The money of a player who gives his own offer and gets the other one. -/
def tradeMoney (money own other : Nat) : Nat :=
  modifiedMoney (modifiedMoney money (-toInt64 own)) (toInt64 other)

/-- The money of a side after the trade. -/
def updateMoney : Nat :=
  tradeMoney (s.money side) (s.data side).money (s.data side.other).money

/-- The exchange itself: the items are removed, then stored, then the money is updated. -/
def executeTrade (a : AcceptTrade) : TradeState :=
  let removed := run (fun t (side, slot) => removeItem s side slot t) s tradedSlots
  let stored := run (fun t (side, slot) => moveItems a s side slot t) removed tradedSlots
  { stored with active := false, money := s.updateMoney }

/-- `HandleAcceptTradeOpcode`. -/
def handleAcceptTrade (a : AcceptTrade) : TradeState :=
  if !s.active then s
  else
    let current := (s.data side.other).serverStateIndex
    let s := { s with log := s.log ++ [LogEntry.accept side a.stateIndex current] }
    -- set before checks for propertly undo at problems (it already set in to client)
    let s := s.setAccepted side true
    if current ≠ a.stateIndex then s.setAccepted side false
    else if !a.withinDist then s.setAccepted side false
    else if !hasEnoughMoney (s.money side) (s.data side).money then s.setAccepted side false
    else if !hasEnoughMoney (s.money side.other) (s.data side.other).money then
      s.setAccepted side.other false
    else if s.tooMuchGold side then s.setAccepted side false
    else if s.tooMuchGold side.other then s.setAccepted side.other false
    else if !s.itemsTradeable side then s
    else if !(s.data side.other).accepted then s
    else if !s.spellReady a side then s.setSpell rand32 side 0 none
    else if !s.spellReady a side.other then s.setSpell rand32 side.other 0 none
    else if !s.canStoreItems a side || !s.canStoreItems a side.other then
      (s.setAccepted side false).setAccepted side.other false
    else s.executeTrade a

/-- `Item::SetCount`, which updates the offer that the item is in. -/
def setCount (guid value : Nat) : TradeState :=
  match s.inventory side guid with
  | none => s
  | some item =>
    let s := { s with
      inventory := update s.inventory side
        (update (s.inventory side) guid (some { item with count := value })) }
    if !s.active then s
    else
      match (s.data side).getTradeSlotForItem guid with
      | none => s
      | some slot => s.setItem rand32 side slot (some guid) true

end TradeState

/-- What can happen while two players trade. What other handlers do with the items and the money of
a player does not concern the trade. -/
inductive TradeEvent
  | setTradeGold (side : Side) (coinage : Nat)
  | setTradeItem (side : Side) (tradeSlot : Nat) (guid : Option Nat)
  | clearTradeItem (side : Side) (tradeSlot : Nat)
  | acceptTrade (side : Side) (a : AcceptTrade)
  | unacceptTrade (side : Side)
  | cancelTrade
  | castSpell (side : Side) (spellId : Nat) (castItem : Option Nat)
  | setCount (side : Side) (guid value : Nat)
  | itemLeaves (side : Side) (guid : Nat)
  | itemChanges (side : Side) (guid : Nat) (flags : ItemFlags)
  | moneyChanges (side : Side) (money : Nat)

/-- One step of a trade. -/
def TradeState.step (rand32 : Nat → Nat) (s : TradeState) : TradeEvent → TradeState
  | .setTradeGold side coinage => s.handleSetTradeGold rand32 side coinage
  | .setTradeItem side tradeSlot guid => s.handleSetTradeItem rand32 side tradeSlot guid
  | .clearTradeItem side tradeSlot => s.handleClearTradeItem rand32 side tradeSlot
  | .acceptTrade side a => s.handleAcceptTrade rand32 side a
  | .unacceptTrade side => s.handleUnacceptTrade side
  | .cancelTrade => s.tradeCancel
  | .castSpell side spellId castItem =>
    if !s.active then s else s.setSpell rand32 side spellId castItem
  | .setCount side guid value => s.setCount rand32 side guid value
  | .itemLeaves side guid =>
    { s with
      inventory := update s.inventory side
        (update (s.inventory side) guid none) }
  | .itemChanges side guid flags =>
    { s with
      inventory := update s.inventory side
        (update (s.inventory side) guid
          ((s.inventory side guid).map fun item => { item with flags })) }
  | .moneyChanges side money =>
    { s with money := update s.money side (min money MAX_MONEY_AMOUNT) }

end TrinityCore.Trading
