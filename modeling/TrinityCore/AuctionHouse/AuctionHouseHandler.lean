import TrinityCore.AuctionHouse.AuctionHouseMgr

/-!
# The requests of players to an auction house

Selling, bidding and cancelling as `AuctionHouseHandler.cpp` handles them, and the steps the
auction houses take.
-/

namespace TrinityCore.AuctionHouse

open Entities

def MAX_AUCTION_ITEMS : Nat := 160
def MIN_AUCTION_TIME : Nat := 12 * 60 * 60
def MINUTE : Nat := 60

namespace AuctionState

variable (env : AuctionEnv) (s : AuctionState)

/-! ### Selling -/

/-- `GetItemByGuid`. -/
def getItemByGuid (player guid : Nat) : Option Item :=
  (s.inventory player).find? fun item => item.guid = guid

/-- The item of the player, when so many of it can be sold in an auction of items like `entry`. -/
def sellableItem (player entry : Nat) (request : Nat × Nat) : Option Item := do
  let item ← s.getItemByGuid player request.1
  if (s.getAItem item.guid).isSome ∨ ¬item.canBeTraded ∨ item.isNotEmptyBag ∨
      env.isConjured item.entry ∨ item.duration ≠ 0 ∨ item.count < request.2 ∨ entry ≠ item.entry
  then none
  else some item

variable (player : Nat)

/-- The items of an auction, all like the first, when they can be sold together. Each item is
there once, and one stack holds them all. -/
def sellableItems (requests : List (Nat × Nat)) : Option (List Item) := do
  let request ← requests.head?
  let first ← s.getItemByGuid player request.1
  let items ← requests.mapM (s.sellableItem env player first.entry)
  if (requests.map Prod.snd).sum = 0 then none
  else if ¬(requests.map Prod.fst).Nodup then none
  else if ∃ item ∈ items, env.maxStackCount item.entry < (requests.map Prod.snd).sum then none
  else some items

variable (creature : Option AuctionHouses)

/-- The house, the items and the time of an auction that a player may sell. The auctioneer is
there unless he is missing, out of reach or without data. -/
def auctionOffer (requests : List (Nat × Nat))
    (bid buyout etime : Nat) : Option (AuctionHouses × List Item × Nat) := do
  if MAX_AUCTION_ITEMS < requests.length then none
  else if ∃ request ∈ requests, request.1 = 0 ∨ request.2 = 0 ∨ 1000 < request.2 then none
  else if bid = 0 ∨ etime = 0 then none
  else if MAX_MONEY_AMOUNT < bid ∨ MAX_MONEY_AMOUNT < buyout then none
  else
    let house ← creature
    let etime := etime * MINUTE % 2 ^ 32
    if etime ∉ [MIN_AUCTION_TIME, 2 * MIN_AUCTION_TIME, 4 * MIN_AUCTION_TIME] then none
    else
      let items ← s.sellableItems env player requests
      return (house, items, etime)

/-- `CloneItem`: a new stack of items like this one. -/
def cloneItem (item : Item) (count : Nat) : Option Item :=
  if count < 1 then none
  else some { item with guid := s.nextItemGuid, count := min count (env.maxStackCount item.entry) }

/-- What the player keeps when so many of his items go into a new stack. -/
def takeItems (requests : List (Nat × Nat)) (inventory : List Item) : List Item :=
  inventory.filterMap fun item =>
    match requests.find? fun request => request.1 = item.guid with
    | none => some item
    | some request =>
      if item.count = request.2 then none else some { item with count := item.count - request.2 }

/-- A new auction of the item is added to the pending ones and to its house, when the player can
pay all deposits. He keeps `inventory`. -/
def createAuction (house : AuctionHouses) (item : Item)
    (bid buyout etime deposit : Nat) (inventory : List Item) : AuctionState :=
  let auction : AuctionEntry :=
    { id := s.nextAuctionId
      itemGUIDLow := item.guid
      itemEntry := item.entry
      itemCount := item.count
      owner := player
      startbid := bid
      bid := 0
      buyout
      expireTime := s.time + env.auctionTime etime
      bidder := 0
      deposit
      etime
      auctionHouseEntry := house }
  let s := { s with nextAuctionId := s.nextAuctionId + 1 }
  match s.pendingAuctionAdd env player auction item with
  | none => s
  | some s =>
    { (s.addAItem item).addAuction auction with
      inventory := Function.update s.inventory player inventory }

/-- `HandleAuctionSellItem`. A whole stack is moved to the auction house, anything else is cloned
into a new stack. -/
def handleAuctionSellItem (requests : List (Nat × Nat)) (bid buyout etime : Nat) : AuctionState :=
  match s.auctionOffer env player creature requests bid buyout etime with
  | some (house, item :: items, etime) =>
    let finalCount := (requests.map Prod.snd).sum
    let deposit := env.getAuctionDeposit house etime item finalCount
    if ¬hasEnoughMoney (s.money player) deposit then s
    else if items = [] ∧ item.count = finalCount then
      s.createAuction env player house item bid buyout etime deposit
        ((s.inventory player).filter fun other => other.guid ≠ item.guid)
    else
      match s.cloneItem env item finalCount with
      | none => s
      | some newItem =>
        { s with nextItemGuid := s.nextItemGuid + 1 }.createAuction env player house newItem bid
          buyout etime deposit (takeItems requests (s.inventory player))
  | _ => s

/-! ### Bidding -/

/-- The auction that the player may bid so much for. -/
def bidOn (auctionId price : Nat) : Option AuctionEntry := do
  if auctionId = 0 ∨ price = 0 then none
  else
    let house ← creature
    let auction ← s.getAuction house auctionId
    if auction.owner = player then none
    else if ¬s.inWorld auction.owner ∧ env.accountId auction.owner = env.accountId player then none
    else if price ≤ auction.bid ∨ price < auction.startbid then none
    else if (price < auction.buyout ∨ auction.buyout = 0) ∧
        price < (auction.bid + env.getAuctionOutBid auction) % 2 ^ 64 then none
    else if ¬hasEnoughMoney (s.money player) price then none
    else some auction

/-- The last bidder gets his money back, unless it is the player who bids again, who pays only
what he bids more. -/
def placeBid (player price : Nat) (auction : AuctionEntry) : AuctionState :=
  let paid :=
    if 0 < auction.bidder then
      if auction.bidder = player then s.pay player auction.id (price - auction.bid)
      else (s.sendAuctionOutbiddedMail env auction).pay player auction.id price
    else s.pay player auction.id price
  paid.modifyAuction auction.id fun auction => { auction with bidder := player, bid := price }

/-- The player pays the price of a buyout, or what it is more than his own bid. The sale is
settled at once. -/
def buyOut (auction : AuctionEntry) : AuctionState :=
  let paid :=
    if player = auction.bidder then
      s.pay player auction.id ((2 ^ 64 + auction.buyout - auction.bid) % 2 ^ 64)
    else
      let paid := s.pay player auction.id auction.buyout
      if auction.bidder ≠ 0 then paid.sendAuctionOutbiddedMail env auction else paid
  let auction := { auction with bidder := player, bid := auction.buyout }
  let mailed := ((paid.sendAuctionSalePendingMail env auction).sendAuctionSuccessfulMail env
    auction).sendAuctionWonMail env auction
  (mailed.removeAItem auction.itemGUIDLow).removeAuction auction

/-- `HandleAuctionPlaceBid`. -/
def handleAuctionPlaceBid (auctionId price : Nat) : AuctionState :=
  match s.bidOn env player creature auctionId price with
  | none => s
  | some auction =>
    if price < auction.buyout ∨ auction.buyout = 0 then s.placeBid env player price auction
    else s.buyOut env player auction

/-! ### Cancelling -/

/-- The auction that the player may cancel, and its item. -/
def cancelled (auctionId : Nat) : Option (AuctionEntry × Item) := do
  let house ← creature
  let auction ← s.getAuction house auctionId
  if auction.owner ≠ player then none
  else
    let item ← s.getAItem auction.itemGUIDLow
    if 0 < auction.bidder ∧ ¬hasEnoughMoney (s.money player) (env.getAuctionCut auction) then none
    else return (auction, item)

/-- `HandleAuctionRemoveItem`. A bidder gets his money back, and the owner pays the cut of it. -/
def handleAuctionRemoveItem (auctionId : Nat) : AuctionState :=
  match s.cancelled env player creature auctionId with
  | none => s
  | some (auction, item) =>
    let refunded :=
      if 0 < auction.bidder then
        let paid := (s.sendAuctionCancelledToBidderMail env auction).modifyMoney player
          (-toInt64 (env.getAuctionCut auction))
        { paid with ledger := s.ledger ++ [.cancel auction] }
      else s
    ((refunded.sendMailTo player auction .canceled 0 [item]).removeAItem
      auction.itemGUIDLow).removeAuction auction

end AuctionState

/-- What happens to auctions. -/
inductive AuctionRequest where
  | sellItem (player : Nat) (creature : Option AuctionHouses) (requests : List (Nat × Nat))
    (bid buyout etime : Nat)
  | placeBid (player : Nat) (creature : Option AuctionHouses) (auctionId price : Nat)
  | removeItem (player : Nat) (creature : Option AuctionHouses) (auctionId : Nat)
  | update (house : AuctionHouses)
  | presence (player : Nat) (connected inWorld : Bool)
  | elapse (seconds : Nat)

def AuctionState.request (env : AuctionEnv) (s : AuctionState) : AuctionRequest → AuctionState
  | .sellItem player creature requests bid buyout etime =>
    s.handleAuctionSellItem env player creature requests bid buyout etime
  | .placeBid player creature auctionId price =>
    s.handleAuctionPlaceBid env player creature auctionId price
  | .removeItem player creature auctionId => s.handleAuctionRemoveItem env player creature auctionId
  | .update house => s.update env house
  | .presence player connected inWorld =>
    { s with
      connected := Function.update s.connected player connected
      inWorld := Function.update s.inWorld player inWorld }
  | .elapse seconds => { s with time := s.time + seconds }

/-- The same with the updates of pending auctions and with money that players spend elsewhere. -/
inductive AuctionEvent where
  | request (request : AuctionRequest)
  | updatePendingAuctions
  | spend (player amount : Nat)

def AuctionState.step (env : AuctionEnv) (s : AuctionState) : AuctionEvent → AuctionState
  | .request request => s.request env request
  | .updatePendingAuctions => s.updatePendingAuctions env
  | .spend player amount => s.modifyMoney player (-amount)

/-! ### A small server -/

/-- A server where a deposit is 100 copper for each item. -/
def fixedDeposits : AuctionEnv where
  getAuctionDeposit _ _ _ count := 100 * count
  getAuctionCut auction := auction.bid / 20
  getAuctionOutBid auction := max (auction.bid / 20) 1
  auctionTime etime := etime
  maxStackCount _ := 20
  isConjured _ := false
  accountId guid := guid
  isBotChar _ := false
  stale id :=
    { id
      itemGUIDLow := 0
      itemEntry := 0
      itemCount := 0
      owner := 0
      startbid := 0
      bid := 0
      buyout := 0
      expireTime := 0
      bidder := 0
      deposit := 0
      etime := 0
      auctionHouseEntry := .neutral }

/-- Two players, the first with an item. -/
def twoPlayers : AuctionState where
  time := 1000
  money _ := 5000
  inventory player :=
    if player = 1 then
      [{ guid := 7, entry := 25, count := 1, duration := 0, canBeTraded := true
         isNotEmptyBag := false }]
    else []
  connected _ := true
  inWorld _ := true
  mails := []
  nextAuctionId := 1
  nextItemGuid := 8
  auctions := []
  mAitems := []
  pendingAuctionMap := []
  ledger := []
  unpaid := []

end TrinityCore.AuctionHouse
