import Mathlib.Algebra.Ring.Int.Defs
import Mathlib.Algebra.Ring.Nat
import TrinityCore.Entities.PlayerMoney
import TrinityCore.Lib.MultiMap

/-!
# The auction house manager

Auctions, the items they hold, the mails about them and the deposits that are charged later, as
`AuctionHouseMgr.cpp` keeps them.
-/

namespace TrinityCore.AuctionHouse

open Entities

/-- The houses, each with its own `AuctionsMap` and its own entry in `AuctionHouse.dbc`. -/
inductive AuctionHouses where
  | alliance
  | horde
  | neutral
  deriving DecidableEq, Repr

/-- What a mail about an auction says of it. -/
inductive MailAuctionAnswers where
  | outbidded
  | won
  | successful
  | expired
  | cancelledToBidder
  | canceled
  | salePending
  deriving DecidableEq, Repr

structure Item where
  guid : Nat
  entry : Nat
  count : Nat
  duration : Nat
  canBeTraded : Bool
  isNotEmptyBag : Bool
  deriving DecidableEq, Repr

/-- An auction, in the house of its entry. A pointer to it is its id, which is never used again. -/
structure AuctionEntry where
  id : Nat
  itemGUIDLow : Nat
  itemEntry : Nat
  itemCount : Nat
  owner : Nat
  startbid : Nat
  bid : Nat
  buyout : Nat
  expireTime : Nat
  bidder : Nat
  deposit : Nat
  etime : Nat
  auctionHouseEntry : AuctionHouses
  deriving DecidableEq, Repr

structure Mail where
  receiver : Nat
  answer : MailAuctionAnswers
  auctionId : Nat
  money : Nat
  items : List Item
  deriving DecidableEq, Repr

/-- The auctions of a player whose deposits he has not paid, and how many they were at the last
update. -/
structure PendingAuctions where
  player : Nat
  auctions : List Nat
  count : Nat
  deriving DecidableEq, Repr

/-- What happens to money, in its order: what a player pays for an auction, the profit of a sale,
an auction cancelled over a bid, and the deposits that are charged together. -/
inductive LedgerEntry where
  | bid (player auction : Nat) (taken : Int)
  | sale (auction : AuctionEntry)
  | cancel (auction : AuctionEntry)
  | charge (player : Nat) (deposits : List (Nat × Nat)) (taken : Int)
  deriving DecidableEq, Repr

/-- What the auction house asks of the rest of the server. `stale` is what is read through a
pointer to an auction that was deleted. -/
structure AuctionEnv where
  getAuctionDeposit : AuctionHouses → Nat → Item → Nat → Nat
  getAuctionCut : AuctionEntry → Nat
  getAuctionOutBid : AuctionEntry → Nat
  auctionTime : Nat → Nat
  maxStackCount : Nat → Nat
  isConjured : Nat → Bool
  accountId : Nat → Nat
  isBotChar : Nat → Bool
  stale : Nat → AuctionEntry

/-- The auctions of all houses and the players, their items and their mails. The ledger and the
auctions whose deposits were given up are history that nothing reads. -/
structure AuctionState where
  time : Nat
  money : Nat → Nat
  inventory : Nat → List Item
  connected : Nat → Bool
  inWorld : Nat → Bool
  mails : List Mail
  nextAuctionId : Nat
  nextItemGuid : Nat
  auctions : List AuctionEntry
  mAitems : List Item
  pendingAuctionMap : List PendingAuctions
  ledger : List LedgerEntry
  unpaid : List Nat

namespace AuctionState

variable (env : AuctionEnv) (s : AuctionState)

/-- `GetAuction` of the house. -/
def getAuction (house : AuctionHouses) (id : Nat) : Option AuctionEntry :=
  s.auctions.find? fun auction => auction.id = id && auction.auctionHouseEntry = house

/-- What a pointer to an auction points to. -/
def deref (id : Nat) : AuctionEntry :=
  (s.auctions.find? fun auction => auction.id = id).getD (env.stale id)

/-- A write through a pointer to an auction. -/
def modifyAuction (id : Nat) (f : AuctionEntry → AuctionEntry) : AuctionState :=
  { s with auctions := s.auctions.map fun auction => if auction.id = id then f auction else auction }

/-- `GetAItem`. -/
def getAItem (guid : Nat) : Option Item := s.mAitems.find? fun item => item.guid = guid

/-- `AddAItem`. -/
def addAItem (item : Item) : AuctionState := { s with mAitems := s.mAitems ++ [item] }

/-- `RemoveAItem`. -/
def removeAItem (guid : Nat) : AuctionState :=
  { s with mAitems := s.mAitems.filter fun item => item.guid ≠ guid }

variable (auction : AuctionEntry)

/-- `AddAuction`. -/
def addAuction : AuctionState :=
  { s with auctions := s.auctions ++ [auction] }

/-- `RemoveAuction`. The auction is deleted, whoever still points to it. -/
def removeAuction : AuctionState :=
  { s with auctions := s.auctions.filter fun other => other.id ≠ auction.id }

/-- `ModifyMoney` of the player. -/
def modifyMoney (player : Nat) (amount : Int) : AuctionState :=
  { s with money := Function.update s.money player (Entities.modifyMoney (s.money player) amount).2 }

/-- The player pays for an auction. -/
def pay (player auction amount : Nat) : AuctionState :=
  let paid := s.modifyMoney player (-toInt64 amount)
  { paid with ledger := s.ledger ++ [.bid player auction (s.money player - paid.money player)] }

/-! ### Mails -/

/-- The character exists, online or offline, and is not one of the auction bot. -/
def receives (guid : Nat) : Bool :=
  (s.connected guid || env.accountId guid ≠ 0) && !env.isBotChar guid

/-- `SendMailTo`. -/
def sendMailTo (receiver : Nat) (auction : AuctionEntry) (answer : MailAuctionAnswers)
    (money : Nat) (items : List Item) : AuctionState :=
  { s with mails := s.mails ++ [{ receiver, answer, auctionId := auction.id, money, items }] }

/-- `SendAuctionWonMail`. -/
def sendAuctionWonMail : AuctionState :=
  match s.getAItem auction.itemGUIDLow with
  | none => s
  | some item =>
    if s.receives env auction.bidder then s.sendMailTo auction.bidder auction .won 0 [item]
    else s.removeAItem auction.itemGUIDLow

/-- `SendAuctionSalePendingMail`. -/
def sendAuctionSalePendingMail : AuctionState :=
  if s.receives env auction.owner then s.sendMailTo auction.owner auction .salePending 0 [] else s

/-- What the owner gets for a sold auction, in `uint64`. -/
def profit : Nat :=
  (((auction.bid + auction.deposit : Nat) - env.getAuctionCut auction : Int) % 2 ^ 64).toNat

/-- `SendAuctionSuccessfulMail`. -/
def sendAuctionSuccessfulMail : AuctionState :=
  if s.receives env auction.owner then
    { s.sendMailTo auction.owner auction .successful (profit env auction) [] with
      ledger := s.ledger ++ [.sale auction] }
  else s

/-- `SendAuctionExpiredMail`. -/
def sendAuctionExpiredMail : AuctionState :=
  match s.getAItem auction.itemGUIDLow with
  | none => s
  | some item =>
    if s.receives env auction.owner then s.sendMailTo auction.owner auction .expired 0 [item]
    else s.removeAItem auction.itemGUIDLow

/-- `SendAuctionOutbiddedMail`. -/
def sendAuctionOutbiddedMail : AuctionState :=
  if s.receives env auction.bidder then
    s.sendMailTo auction.bidder auction .outbidded auction.bid []
  else s

/-- `SendAuctionCancelledToBidderMail`. -/
def sendAuctionCancelledToBidderMail : AuctionState :=
  if s.receives env auction.bidder then
    s.sendMailTo auction.bidder auction .cancelledToBidder auction.bid []
  else s

/-! ### Pending auctions -/

/-- The entry of the player in `pendingAuctionMap`. -/
def pendingOf (player : Nat) : Option PendingAuctions :=
  s.pendingAuctionMap.find? fun pending => pending.player = player

/-- `PendingAuctionAdd`: nothing, when the deposits so far and this one are more than the player
has. Those so far are computed for the new item. -/
def pendingAuctionAdd (player : Nat) (auction : AuctionEntry) (item : Item) :
    Option AuctionState :=
  match s.pendingOf player with
  | some pending =>
    let deposits := pending.auctions.map fun id =>
      let thisAuction := s.deref env id
      env.getAuctionDeposit thisAuction.auctionHouseEntry thisAuction.etime item
        thisAuction.itemCount
    let deposit :=
      env.getAuctionDeposit auction.auctionHouseEntry auction.etime item auction.itemCount
    if hasEnoughMoney (s.money player) ((deposits.sum + deposit) % 2 ^ 64) then
      some { s with pendingAuctionMap := s.pendingAuctionMap.map fun pending =>
        if pending.player = player then
          { pending with auctions := pending.auctions ++ [auction.id] }
        else pending }
    else none
  | none =>
    let pending : PendingAuctions := { player, auctions := [auction.id], count := 0 }
    some { s with
      pendingAuctionMap := insertLast PendingAuctions.player pending s.pendingAuctionMap }

variable (pending : PendingAuctions)

/-- The deposit of all pending auctions of a player, computed for the item of the first. -/
def totalDeposit : Nat :=
  match pending.auctions with
  | [] => 0
  | id :: _ =>
    let totalItems := (pending.auctions.map fun id => (s.deref env id).itemCount).sum % 2 ^ 32
    let first := s.deref env id
    match s.getAItem first.itemGUIDLow with
    | some item => env.getAuctionDeposit first.auctionHouseEntry first.etime item totalItems
    | none => 0

/-- Every auction gets an equal share of the deposit, the last one what remains. -/
def shareDeposit (share : Nat) : Nat → List Nat → AuctionState → AuctionState
  | _, [], s => s
  | remain, [id], s => s.modifyAuction id fun auction => { auction with deposit := remain }
  | remain, id :: id' :: rest, s =>
    shareDeposit share (remain - share) (id' :: rest)
      (s.modifyAuction id fun auction => { auction with deposit := share })

/-- The entry of the player is erased from `pendingAuctionMap`. -/
def erasePending (player : Nat) : AuctionState :=
  { s with pendingAuctionMap := s.pendingAuctionMap.filter fun pending => pending.player ≠ player }

/-- `PendingAuctionProcess`. -/
def pendingAuctionProcess : AuctionState :=
  let totaldeposit := s.totalDeposit env pending
  let shared := shareDeposit (totaldeposit / pending.auctions.length) totaldeposit
    pending.auctions s
  let paid := (shared.erasePending pending.player).modifyMoney pending.player (-toInt64 totaldeposit)
  { paid with ledger := paid.ledger ++ [.charge pending.player
      (pending.auctions.map fun id => (id, (shared.deref env id).deposit))
      (s.money pending.player - paid.money pending.player)] }

/-- The auctions of a player who is offline expire now, without their deposits. -/
def expirePending : AuctionState :=
  let expired := pending.auctions.foldl (fun s id =>
    s.modifyAuction id fun auction => { auction with expireTime := s.time }) s
  { expired.erasePending pending.player with unpaid := s.unpaid ++ pending.auctions }

/-- What an update does with the pending auctions of one player. -/
def updatePending : AuctionState :=
  if s.connected pending.player then
    if pending.auctions.length = pending.count then s.pendingAuctionProcess env pending
    else { s with pendingAuctionMap := s.pendingAuctionMap.map fun other =>
      if other.player = pending.player then { other with count := pending.auctions.length }
      else other }
  else s.expirePending pending

/-- `UpdatePendingAuctions`. -/
def updatePendingAuctions : AuctionState := s.pendingAuctionMap.foldl (updatePending env) s

/-! ### Expiry -/

/-- The auction ends: its owner and its bidder get their mails. -/
def expire : AuctionState :=
  let mailed :=
    if auction.bidder = 0 ∧ auction.bid = 0 then s.sendAuctionExpiredMail env auction
    else (s.sendAuctionSuccessfulMail env auction).sendAuctionWonMail env auction
  (mailed.removeAItem auction.itemGUIDLow).removeAuction auction

/-- `AuctionHouseObject::Update` for one house. Auctions that expire before the next update end
now. -/
def update (house : AuctionHouses) : AuctionState :=
  (s.auctions.filter (·.auctionHouseEntry = house)).foldl (fun s auction =>
    if auction.expireTime > s.time + 60 then s else s.expire env auction) s

end AuctionState

end TrinityCore.AuctionHouse
