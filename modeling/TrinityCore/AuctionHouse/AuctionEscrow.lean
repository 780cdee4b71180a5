import TrinityCore.AuctionHouse.AuctionBooks
import TrinityCore.Lib.KeyedList
import TrinityCore.Lib.StateMachine

/-!
# Money and items in escrow

What players, mails and auctions hold together, what everyone paid for an auction and got back, and
the items of the auctions, over whole runs of requests.
-/

namespace TrinityCore.AuctionHouse

open Entities List StateMachine

variable {env : AuctionEnv} {players : Finset Nat} {s : AuctionState}

/-- The money of the players, in mails and in the bids of auctions. -/
def held (players : Finset Nat) (s : AuctionState) : Int :=
  totalMoney players s.money + (s.mails.map fun mail => (mail.money : Int)).sum +
    (s.auctions.map fun auction => (auction.bid : Int)).sum

/-- The money that an entry makes or takes away. -/
def LedgerEntry.flow (env : AuctionEnv) : LedgerEntry → Int
  | .sale auction => auction.deposit - env.getAuctionCut auction
  | .cancel auction => -env.getAuctionCut auction
  | _ => 0

def LedgerEntry.sold? : LedgerEntry → Option AuctionEntry
  | .sale auction => some auction
  | _ => none

/-- The auctions that were sold, each as it was then. -/
def sales (ledger : List LedgerEntry) : List AuctionEntry := ledger.filterMap LedgerEntry.sold?

/-- What the entry says that the player paid for the auction. -/
def LedgerEntry.paidFor (player id : Nat) : LedgerEntry → Int
  | .bid other auction taken => if other = player ∧ auction = id then taken else 0
  | _ => 0

/-- What the player paid for the auction. -/
def paidBy (s : AuctionState) (player id : Nat) : Int :=
  (s.ledger.map (LedgerEntry.paidFor player id)).sum

/-- What the mail gives back to the player of what he paid for the auction. -/
def Mail.refund (player id : Nat) (mail : Mail) : Int :=
  if mail.receiver = player ∧ mail.auctionId = id ∧
    (mail.answer = .outbidded ∨ mail.answer = .cancelledToBidder) then mail.money else 0

/-- What the player got back of what he paid for the auction. -/
def refundedTo (s : AuctionState) (player id : Nat) : Int :=
  (s.mails.map (Mail.refund player id)).sum

/-- What the auction holds of the player's money, or was paid with it. -/
def AuctionEntry.stake (player id : Nat) (auction : AuctionEntry) : Int :=
  if auction.id = id ∧ auction.bidder = player then auction.bid else 0

/-- All characters exist and none is of the auction bot, and cuts are taken from bids. -/
structure Served (env : AuctionEnv) (players : Finset Nat) : Prop where
  known : ∀ player ∈ players, player ≠ 0 ∧ env.accountId player ≠ 0 ∧ env.isBotChar player = false
  cut : ∀ auction, env.getAuctionCut auction ≤ auction.bid

/-- What the auction house is to keep, since a state without auctions. -/
structure Escrow (env : AuctionEnv) (players : Finset Nat) (start s : AuctionState) : Prop where
  conserved : held players s = held players start + (s.ledger.map (LedgerEntry.flow env)).sum
  bidder : ∀ auction ∈ s.auctions,
    paidBy s auction.bidder auction.id = refundedTo s auction.bidder auction.id + auction.bid
  outbid : ∀ auction ∈ s.auctions, ∀ player, player ≠ auction.bidder →
    paidBy s player auction.id = refundedTo s player auction.id
  buyer : ∀ auction ∈ sales s.ledger,
    paidBy s auction.bidder auction.id = refundedTo s auction.bidder auction.id + auction.bid
  loser : ∀ auction ∈ sales s.ledger, ∀ player, player ≠ auction.bidder →
    paidBy s player auction.id = refundedTo s player auction.id
  ended : ∀ id, (∀ auction ∈ s.auctions, auction.id ≠ id) →
    (∀ auction ∈ sales s.ledger, auction.id ≠ id) →
    ∀ player, paidBy s player id = refundedTo s player id
  priced : ∀ auction ∈ s.auctions, (auction.bid = 0 ↔ auction.bidder = 0) ∧
    (auction.buyout = 0 ∨ auction.bid < auction.buyout)
  stored : ∀ auction ∈ s.auctions, ∃ item, s.getAItem auction.itemGUIDLow = some item ∧
    item.entry = auction.itemEntry ∧ item.count = auction.itemCount
  apart : (s.auctions.map AuctionEntry.itemGUIDLow).Nodup

/-- The state of all money and items. -/
structure Balanced (env : AuctionEnv) (players : Finset Nat) (start s : AuctionState) :
    Prop where
  conserved : held players s = held players start + (s.ledger.map (LedgerEntry.flow env)).sum
  accounts : ∀ player id, paidBy s player id = refundedTo s player id +
    ((s.auctions ++ sales s.ledger).map (AuctionEntry.stake player id)).sum
  unbid : ∀ auction ∈ s.auctions, auction.bidder = 0 → auction.bid = 0
  purses : ∀ player ∈ players, s.money player ≤ MAX_MONEY_AMOUNT
  caps : ∀ auction ∈ s.auctions, auction.bid ≤ MAX_MONEY_AMOUNT ∧
    auction.deposit ≤ MAX_MONEY_AMOUNT ∧ auction.buyout ≤ MAX_MONEY_AMOUNT
  parties : ∀ auction ∈ s.auctions, auction.owner ∈ players ∧
    (auction.bidder = 0 ∨ auction.bidder ∈ players)
  ids : ((s.auctions ++ sales s.ledger).map AuctionEntry.id).Nodup
  fresh : ∀ auction ∈ s.auctions ++ sales s.ledger, auction.id < s.nextAuctionId
  stored : ∀ auction ∈ s.auctions, ∃ item ∈ s.mAitems, item.guid = auction.itemGUIDLow ∧
    item.entry = auction.itemEntry ∧ item.count = auction.itemCount
  apart : (s.auctions.map AuctionEntry.itemGUIDLow).Nodup
  stock : (s.mAitems.map Item.guid).Nodup
  stocked : ∀ item ∈ s.mAitems, item.guid < s.nextItemGuid
  carried : ∀ player, ∀ item ∈ s.inventory player, item.guid < s.nextItemGuid

/-- A bid other than 0 is somebody's, and below the price of a buyout. -/
def Priced (s : AuctionState) : Prop :=
  ∀ auction ∈ s.auctions, (auction.bid = 0 ↔ auction.bidder = 0) ∧
    (auction.buyout = 0 ∨ auction.bid < auction.buyout)

/-! ### What the state of all money says of the escrow -/

variable {auction : AuctionEntry}

/-- The one auction with an id holds all that is held of it. -/
theorem Balanced.stake_eq {start : AuctionState} (h : Balanced env players start s)
    (hmem : auction ∈ s.auctions ++ sales s.ledger) (player : Nat) :
    ((s.auctions ++ sales s.ledger).map (AuctionEntry.stake player auction.id)).sum =
      if auction.bidder = player then (auction.bid : Int) else 0 := by
  rw [KeyedList.sum_eq_of_key h.ids hmem]
  · simp only [AuctionEntry.stake, true_and]
  · intro other _ hne
    exact if_neg fun heq => hne heq.1

theorem Balanced.escrow {start : AuctionState} (h : Balanced env players start s)
    (hpriced : Priced s) : Escrow env players start s := by
  have hof : ∀ auction ∈ s.auctions ++ sales s.ledger,
      paidBy s auction.bidder auction.id = refundedTo s auction.bidder auction.id + auction.bid := by
    intro auction hmem
    rw [h.accounts, h.stake_eq hmem, if_pos rfl]
  have hother : ∀ auction ∈ s.auctions ++ sales s.ledger, ∀ player, player ≠ auction.bidder →
      paidBy s player auction.id = refundedTo s player auction.id := by
    intro auction hmem player hne
    rw [h.accounts, h.stake_eq hmem, if_neg hne.symm, add_zero]
  refine ⟨h.conserved, ?_, ?_, ?_, ?_, fun id hlive hsold player => ?_, hpriced,
    fun auction hmem => ?_, h.apart⟩
  · exact fun auction hmem => hof auction (mem_append_left _ hmem)
  · exact fun auction hmem => hother auction (mem_append_left _ hmem)
  · exact fun auction hmem => hof auction (mem_append_right _ hmem)
  · exact fun auction hmem => hother auction (mem_append_right _ hmem)
  · rw [h.accounts, sum_eq_zero, add_zero]
    intro x hx
    obtain ⟨auction, hmem, rfl⟩ := mem_map.mp hx
    apply if_neg
    intro heq
    rcases mem_append.mp hmem with hin | hin
    · exact hlive auction hin heq.1
    · exact hsold auction hin heq.1
  · obtain ⟨item, hitem, hguid, hrest⟩ := h.stored auction hmem
    refine ⟨item, ?_, hrest⟩
    unfold AuctionState.getAItem
    rw [← hguid]
    exact KeyedList.find?_of_mem h.stock hitem

/-! ### What the steps are -/

namespace AuctionState

theorem receives_of_mem (h : Served env players) {player : Nat} (hmem : player ∈ players) :
    s.receives env player = true := by
  obtain ⟨-, haccount, hbot⟩ := h.known player hmem
  unfold receives
  rw [hbot]
  simp [haccount]

theorem pay_eq {player amount : Nat} (hle : amount ≤ s.money player)
    (hpurse : s.money player ≤ MAX_MONEY_AMOUNT) (auction : Nat) :
    s.pay player auction amount =
      { s with
        money := Function.update s.money player (s.money player - amount)
        ledger := s.ledger ++ [.bid player auction amount] } := by
  have hcast : toInt64 amount = amount := by
    apply toInt64_of_lt
    unfold MAX_MONEY_AMOUNT at hpurse
    omega
  have hpaid : (Entities.modifyMoney (s.money player) (-toInt64 amount)).2 =
      s.money player - amount := by
    rw [hcast, modifyMoney_neg hle]
  have htaken : (s.money player : Int) - (s.money player - amount : Nat) = amount := by omega
  unfold pay modifyMoney
  simp only [hpaid, Function.update_self, htaken]

/-- What the player's own bid is of his next one. -/
def ownBid (player : Nat) (auction : AuctionEntry) : Nat :=
  if auction.bidder = player then auction.bid else 0

/-- The mail that gives another bidder his money back. -/
def outbidMails (player : Nat) (auction : AuctionEntry) : List Mail :=
  if auction.bidder = 0 ∨ auction.bidder = player then []
  else [{ receiver := auction.bidder, answer := .outbidded, auctionId := auction.id
          money := auction.bid, items := [] }]

/-- The state once the player has made a higher bid. -/
def raise (s : AuctionState) (player price : Nat) (auction : AuctionEntry) : AuctionState :=
  { s with
    money := Function.update s.money player
      (s.money player - (price - ownBid player auction))
    mails := s.mails ++ outbidMails player auction
    ledger := s.ledger ++ [.bid player auction.id (price - ownBid player auction : Nat)]
    auctions := s.auctions.map fun other =>
      if other.id = auction.id then { other with bidder := player, bid := price } else other }

theorem placeBid_eq (h : Served env players) {player price : Nat} (hplayer : player ≠ 0)
    (hparty : auction.bidder = 0 ∨ auction.bidder ∈ players) (hprice : price ≤ s.money player)
    (hpurse : s.money player ≤ MAX_MONEY_AMOUNT) :
    s.placeBid env player price auction = s.raise player price auction := by
  unfold placeBid raise outbidMails ownBid
  by_cases hnone : auction.bidder = 0
  · rw [if_neg (by omega), if_pos (Or.inl hnone), if_neg (by omega), pay_eq hprice hpurse,
      append_nil, Nat.sub_zero]
    rfl
  · rw [if_pos (by omega)]
    by_cases hown : auction.bidder = player
    · rw [if_pos hown, if_pos (Or.inr hown), if_pos hown, pay_eq (by omega) hpurse,
        append_nil]
      rfl
    · have hmail : s.sendAuctionOutbiddedMail env auction =
          s.sendMailTo auction.bidder auction .outbidded auction.bid [] :=
        if_pos (receives_of_mem h (hparty.resolve_left hnone))
      have hneither : ¬(auction.bidder = 0 ∨ auction.bidder = player) := by tauto
      have hpay := pay_eq (s := s.sendMailTo auction.bidder auction .outbidded auction.bid [])
        hprice hpurse auction.id
      rw [if_neg hown, if_neg hneither, if_neg hown, hmail, hpay, Nat.sub_zero]
      rfl

/-- A sale once the auction has its buyer. -/
def closeSale (env : AuctionEnv) (s : AuctionState) (auction : AuctionEntry) : AuctionState :=
  (((s.sendAuctionSuccessfulMail env auction).sendAuctionWonMail env auction).removeAItem
    auction.itemGUIDLow).removeAuction auction

/-- The mails of a sale. -/
def saleMails (env : AuctionEnv) (auction : AuctionEntry) (item : Item) : List Mail :=
  [{ receiver := auction.owner, answer := .successful, auctionId := auction.id
     money := profit env auction, items := [] },
    { receiver := auction.bidder, answer := .won, auctionId := auction.id
      money := 0, items := [item] }]

theorem closeSale_eq (h : Served env players) {item : Item} (howner : auction.owner ∈ players)
    (hbidder : auction.bidder ∈ players) (hitem : s.getAItem auction.itemGUIDLow = some item) :
    s.closeSale env auction =
      { s with
        mails := s.mails ++ saleMails env auction item
        ledger := s.ledger ++ [.sale auction]
        mAitems := s.mAitems.filter fun item => item.guid ≠ auction.itemGUIDLow
        auctions := s.auctions.filter fun other => other.id ≠ auction.id } := by
  have hsuccess : s.sendAuctionSuccessfulMail env auction =
      { s.sendMailTo auction.owner auction .successful (profit env auction) [] with
        ledger := s.ledger ++ [.sale auction] } := if_pos (receives_of_mem h howner)
  have hwon : ∀ t : AuctionState, t.mAitems = s.mAitems →
      t.sendAuctionWonMail env auction = t.sendMailTo auction.bidder auction .won 0 [item] := by
    intro t ht
    have hfound : t.getAItem auction.itemGUIDLow = some item := by
      rw [← hitem]
      unfold getAItem
      rw [ht]
    unfold sendAuctionWonMail
    rw [hfound]
    exact if_pos (receives_of_mem h hbidder)
  unfold closeSale
  rw [hsuccess, hwon _ ?_]
  · unfold sendMailTo removeAItem removeAuction saleMails
    rw [append_assoc]
    rfl
  · rfl

/-- A buyout is a bid of its price that is sold at once. -/
theorem buyOut_eq (h : Served env players) {player : Nat} {item : Item} (hplayer : player ∈ players)
    (hparty : auction.bidder = 0 ∨ auction.bidder ∈ players)
    (hprice : auction.buyout ≤ s.money player) (hpurse : s.money player ≤ MAX_MONEY_AMOUNT)
    (hbid : auction.bid < auction.buyout) (howner : auction.owner ∈ players)
    (hitem : s.getAItem auction.itemGUIDLow = some item) :
    s.buyOut env player auction =
      ((s.raise player auction.buyout auction).sendAuctionSalePendingMail env
        (soldTo player auction)).closeSale env (soldTo player auction) := by
  have hpaid : s.buyOut env player auction =
      { s.raise player auction.buyout auction with auctions := s.auctions }.settleSale env
        (soldTo player auction) := by
    unfold buyOut raise outbidMails ownBid
    by_cases hown : auction.bidder = player
    · have hraise : (2 ^ 64 + auction.buyout - auction.bid) % 2 ^ 64 =
          auction.buyout - auction.bid := by
        unfold MAX_MONEY_AMOUNT at hpurse
        omega
      rw [if_pos hown.symm, hraise, if_pos (Or.inr hown), if_pos hown, pay_eq (by omega) hpurse,
        append_nil]
      rfl
    · rw [if_neg (fun heq => hown heq.symm), if_neg hown, pay_eq hprice hpurse, Nat.sub_zero]
      by_cases hnone : auction.bidder = 0
      · rw [if_pos (Or.inl hnone)]
        dsimp only
        rw [if_neg (not_not.mpr hnone), append_nil]
        rfl
      · have hreceives := receives_of_mem (s := { s with
          money := Function.update s.money player (s.money player - auction.buyout)
          ledger := s.ledger ++ [.bid player auction.id auction.buyout] }) h
          (hparty.resolve_left hnone)
        have hneither : ¬(auction.bidder = 0 ∨ auction.bidder = player) := by tauto
        rw [if_neg hneither]
        dsimp only
        rw [if_pos hnone]
        unfold sendAuctionOutbiddedMail
        rw [if_pos hreceives]
        rfl
  have hpending : ∀ t : AuctionState,
      t.sendAuctionSalePendingMail env (soldTo player auction) =
        t.sendMailTo auction.owner (soldTo player auction) .salePending 0 [] :=
    fun t => if_pos (receives_of_mem h howner)
  have hclose : ∀ t : AuctionState, t.mAitems = s.mAitems →
      (t.sendMailTo auction.owner (soldTo player auction) .salePending 0 []).closeSale env
        (soldTo player auction) = { t with
          mails := t.mails ++ [{ receiver := auction.owner, answer := .salePending
                                 auctionId := auction.id, money := 0, items := [] }] ++
            saleMails env (soldTo player auction) item
          ledger := t.ledger ++ [.sale (soldTo player auction)]
          mAitems := t.mAitems.filter fun item => item.guid ≠ auction.itemGUIDLow
          auctions := t.auctions.filter fun other => other.id ≠ auction.id } := by
    intro t ht
    refine closeSale_eq h howner hplayer ?_
    rw [← hitem]
    unfold getAItem sendMailTo
    rw [ht]
    rfl
  rw [hpaid, settleSale, hpending, hpending]
  have hid : ∀ other : AuctionEntry,
      AuctionEntry.id { other with bidder := player, bid := auction.buyout } = other.id :=
    fun _ => rfl
  have hauctions : (s.raise player auction.buyout auction).auctions.filter
      (fun other => other.id ≠ auction.id) = s.auctions.filter fun other => other.id ≠ auction.id :=
    KeyedList.filter_map_key hid auction.id
  have hleft := hclose { s.raise player auction.buyout auction with auctions := s.auctions } rfl
  have hright := hclose (s.raise player auction.buyout auction) rfl
  rw [hauctions] at hright
  rw [hright]
  exact hleft

end AuctionState

end TrinityCore.AuctionHouse
