import TrinityCore.AuctionHouse.AuctionEscrow

/-!
# Escrow over runs

Every request keeps the money and the items of the auction house in balance, so every run does.
-/

namespace TrinityCore.AuctionHouse

open AuctionEntry Function List

open Entities StateMachine AuctionState

variable {env : AuctionEnv} {players : Finset Nat} {start s : AuctionState}

/-! ### Mails and sales -/

theorem sales_append (xs ys : List LedgerEntry) : sales (xs ++ ys) = sales xs ++ sales ys :=
  filterMap_append

variable {auction : AuctionEntry} {player price buyout : Nat}

/-- The mail to the last bidder holds what is not the player's own of the last bid. -/
theorem sum_outbidMails (player : Nat) (h : auction.bidder = 0 → auction.bid = 0) :
    ((outbidMails player auction).map fun mail => (mail.money : Int)).sum =
      auction.bid - ownBid player auction := by
  unfold outbidMails ownBid
  by_cases hown : auction.bidder = player
  · simp [hown]
  · by_cases hnone : auction.bidder = 0
    · simp [hnone, h hnone]
    · simp [hown, hnone]

/-- What the last bidder gets back is his own stake, unless he bids again. -/
theorem refund_outbidMails (player : Nat) (h : auction.bidder = 0 → auction.bid = 0)
    (other id : Nat) :
    ((outbidMails player auction).map (Mail.refund other id)).sum =
      auction.stake other id -
        if auction.id = id ∧ player = other then (ownBid player auction : Int) else 0 := by
  unfold outbidMails ownBid stake
  by_cases hown : auction.bidder = player
  · simp [hown]
  · by_cases hnone : auction.bidder = 0
    · simp [hnone, h hnone]
    · have hother : player ≠ auction.bidder := fun heq => hown heq.symm
      by_cases hreceiver : auction.bidder = other
      · subst hreceiver
        simp [Mail.refund, hown, hnone, hother]
      · simp [Mail.refund, hown, hnone, hreceiver]

/-! ### A higher bid -/

/-- The auction once the player has bid the price. -/
def bidBy (player price : Nat) (auction : AuctionEntry) : AuctionEntry :=
  { auction with
    bidder := player
    bid := price }

theorem mem_raise {other : AuctionEntry} (hids : (s.auctions.map AuctionEntry.id).Nodup)
    (hmem : auction ∈ s.auctions) (h : other ∈ (s.raise player price auction).auctions) :
    other = bidBy player price auction ∨ other ∈ s.auctions ∧ other.id ≠ auction.id := by
  obtain ⟨old, hold, rfl⟩ := mem_map.mp h
  by_cases hid : old.id = auction.id
  · rw [KeyedList.eq_of_key_eq hids hmem hold hid]
    exact .inl (if_pos rfl)
  · rw [if_neg hid]
    exact .inr ⟨hold, hid⟩

theorem Balanced.auction_ids (h : Balanced env players start s) :
    (s.auctions.map AuctionEntry.id).Nodup := by
  have hids := h.ids
  rw [map_append] at hids
  exact hids.of_append_left

/-- A higher bid keeps the balance. -/
theorem Balanced.raise (h : Balanced env players start s) (hplayer : player ∈ players)
    (hzero : player ≠ 0) (hmem : auction ∈ s.auctions) (hbid : auction.bid ≤ price)
    (hprice : price ≤ s.money player) :
    Balanced env players start (s.raise player price auction) := by
  have hunbid := h.unbid auction hmem
  have hpurse := h.purses player hplayer
  have hids := h.auction_ids
  have hown : ownBid player auction ≤ price := by
    unfold ownBid
    split <;> omega
  have hfields : ∀ {α : Type} (f : AuctionEntry → α),
      (∀ other : AuctionEntry, f { other with bidder := player, bid := price } = f other) →
      (s.raise player price auction).auctions.map f = s.auctions.map f := by
    intro α f hf
    unfold AuctionState.raise
    rw [map_map]
    apply map_congr_left
    intro other _
    simp only [comp]
    split
    · exact hf other
    · rfl
  have hsales : sales (s.raise player price auction).ledger = sales s.ledger := by
    unfold AuctionState.raise
    rw [sales_append]
    exact append_nil _
  have hsum : ∀ f : AuctionEntry → Int,
      ((s.raise player price auction).auctions.map f).sum + f auction =
        (s.auctions.map f).sum + f (bidBy player price auction) :=
    fun f => KeyedList.sum_map_key hids hmem (bidBy player price) f
  refine ⟨?_, fun other id => ?_, fun other hother => ?_, fun other hother => ?_,
    fun other hother => ?_, fun other hother => ?_, ?_, ?_, fun other hother => ?_, ?_, h.stock,
    h.stocked, h.carried⟩
  · have hconserved := h.conserved
    have hbids := hsum fun auction => (auction.bid : Int)
    have hmoney := totalMoney_update hplayer s.money
      (s.money player - (price - ownBid player auction))
    have hmails := sum_outbidMails player hunbid
    unfold held at hconserved ⊢
    simp only [AuctionState.raise, map_append, sum_append, map_singleton,
      sum_singleton, LedgerEntry.flow, hmails] at hbids ⊢
    simp only [bidBy] at hbids
    omega
  · have haccounts := h.accounts other id
    have hstakes := hsum (stake other id)
    have hrefund := refund_outbidMails player hunbid other id
    rw [map_append, sum_append] at haccounts ⊢
    rw [hsales]
    unfold paidBy refundedTo at haccounts ⊢
    simp only [AuctionState.raise, map_append, sum_append, map_singleton,
      sum_singleton, LedgerEntry.paidFor, hrefund] at hstakes ⊢
    have hstake : (bidBy player price auction).stake other id =
        if auction.id = id ∧ player = other then (price : Int) else 0 := rfl
    rw [hstake] at hstakes
    by_cases hthis : auction.id = id ∧ player = other
    · rw [if_pos hthis] at hstakes ⊢
      rw [if_pos ⟨hthis.2, hthis.1⟩]
      omega
    · rw [if_neg hthis] at hstakes ⊢
      rw [if_neg fun hand => hthis ⟨hand.2, hand.1⟩]
      omega
  · intro hnone
    rcases mem_raise hids hmem hother with rfl | ⟨hold, -⟩
    · exact absurd hnone hzero
    · exact h.unbid other hold hnone
  · by_cases hsame : other = player
    · subst hsame
      change update s.money other _ other ≤ MAX_MONEY_AMOUNT
      rw [update_self]
      omega
    · change update s.money player _ other ≤ MAX_MONEY_AMOUNT
      rw [update_of_ne hsame]
      exact h.purses other hother
  · rcases mem_raise hids hmem hother with rfl | ⟨hold, -⟩
    · exact ⟨hprice.trans hpurse, (h.caps auction hmem).2⟩
    · exact h.caps other hold
  · rcases mem_raise hids hmem hother with rfl | ⟨hold, -⟩
    · exact ⟨(h.parties auction hmem).1, .inr hplayer⟩
    · exact h.parties other hold
  · rw [map_append, hfields AuctionEntry.id fun _ => rfl, hsales, ← map_append]
    exact h.ids
  · rw [hsales]
    intro other hother
    rcases mem_append.mp hother with hlive | hsold
    · rcases mem_raise hids hmem hlive with rfl | ⟨hold, -⟩
      · exact h.fresh auction (mem_append_left _ hmem)
      · exact h.fresh other (mem_append_left _ hold)
    · exact h.fresh other (mem_append_right _ hsold)
  · rcases mem_raise hids hmem hother with rfl | ⟨hold, -⟩
    · exact h.stored auction hmem
    · exact h.stored other hold
  · rw [hfields itemGUIDLow fun _ => rfl]
    exact h.apart

/-! ### Mails without money -/

/-- A mail that gives nobody money keeps the balance. -/
theorem Balanced.sendMailTo (h : Balanced env players start s) (receiver : Nat)
    (auction : AuctionEntry) (answer : MailAuctionAnswers) (items : List Item) :
    Balanced env players start (s.sendMailTo receiver auction answer 0 items) := by
  refine ⟨?_, fun player id => ?_, h.unbid, h.purses, h.caps, h.parties, h.ids, h.fresh, h.stored,
    h.apart, h.stock, h.stocked, h.carried⟩
  · have hconserved := h.conserved
    unfold held at hconserved ⊢
    simpa [AuctionState.sendMailTo] using hconserved
  · have haccounts := h.accounts player id
    unfold paidBy refundedTo at haccounts ⊢
    simpa [AuctionState.sendMailTo, Mail.refund] using haccounts

/-! ### The end of an auction -/

/-- What an auction that ends leaves behind keeps the balance when its mails and its entry in the
ledger settle the bid. -/
theorem Balanced.close (h : Balanced env players start s)
    (hmem : auction ∈ s.auctions) {money : Nat → Nat} {mails : List Mail}
    {entries : List LedgerEntry}
    (hmoney : ∀ player ∈ players, money player ≤ MAX_MONEY_AMOUNT)
    (hheld : totalMoney players money + (mails.map fun mail => (mail.money : Int)).sum =
      totalMoney players s.money + auction.bid + (entries.map (LedgerEntry.flow env)).sum)
    (hpaid : ∀ player id, (entries.map (LedgerEntry.paidFor player id)).sum = 0)
    (hsettled : ∀ player id, (mails.map (Mail.refund player id)).sum +
      ((sales entries).map (AuctionEntry.stake player id)).sum = auction.stake player id)
    (hsales : (sales entries).map AuctionEntry.id = [] ∨
      (sales entries).map AuctionEntry.id = [auction.id]) :
    Balanced env players start { s with
      money
      mails := s.mails ++ mails
      ledger := s.ledger ++ entries
      mAitems := s.mAitems.filter fun item => item.guid ≠ auction.itemGUIDLow
      auctions := s.auctions.filter fun other => other.id ≠ auction.id } := by
  have hids := h.auction_ids
  have hsum : ∀ f : AuctionEntry → Int,
      ((s.auctions.filter fun other => other.id ≠ auction.id).map f).sum + f auction =
        (s.auctions.map f).sum := fun f => KeyedList.sum_filter_key hids hmem f
  have hperm := KeyedList.perm_filter_key hids hmem
  refine ⟨?_, fun player id => ?_, fun other hother => ?_, hmoney, fun other hother => ?_,
    fun other hother => ?_, ?_, ?_, fun other hother => ?_, ?_, ?_, ?_, h.carried⟩
  · have hconserved := h.conserved
    have hbids := hsum fun auction => (auction.bid : Int)
    unfold held at hconserved ⊢
    simp only [map_append, sum_append] at hbids ⊢
    omega
  · have haccounts := h.accounts player id
    have hstakes := hsum (stake player id)
    have hpay := hpaid player id
    have hrefund := hsettled player id
    unfold paidBy refundedTo at haccounts ⊢
    simp only [sales_append, map_append, sum_append] at haccounts hstakes ⊢
    omega
  · exact h.unbid other (mem_of_mem_filter hother)
  · exact h.caps other (mem_of_mem_filter hother)
  · exact h.parties other (mem_of_mem_filter hother)
  · have hall := h.ids
    rw [map_append, (hperm.map AuctionEntry.id).append_right _ |>.nodup_iff, map_cons,
      cons_append, nodup_cons] at hall
    rw [sales_append, map_append, map_append]
    rcases hsales with hnone | hone
    · rw [hnone, append_nil]
      exact hall.2
    · rw [hone, ← append_assoc, (perm_append_singleton _ _).nodup_iff, nodup_cons]
      exact hall
  · rw [sales_append]
    intro other hother
    rcases mem_append.mp hother with hlive | hsold
    · exact h.fresh other (mem_append_left _ (mem_of_mem_filter hlive))
    · rcases mem_append.mp hsold with hold | hnew
      · exact h.fresh other (mem_append_right _ hold)
      · have hid : other.id ∈ (sales entries).map AuctionEntry.id := mem_map_of_mem hnew
        rcases hsales with hnone | hone
        · rw [hnone] at hid
          cases hid
        · rw [hone, mem_singleton] at hid
          rw [hid]
          exact h.fresh auction (mem_append_left _ hmem)
  · obtain ⟨hold, hne⟩ := mem_filter.mp hother
    obtain ⟨item, hitem, hguid, hrest⟩ := h.stored other hold
    refine ⟨item, mem_filter.mpr ⟨hitem, decide_eq_true fun heq => ?_⟩, hguid, hrest⟩
    rw [hguid] at heq
    rw [KeyedList.eq_of_key_eq h.apart hmem hold heq] at hne
    exact of_decide_eq_true hne rfl
  · exact h.apart.sublist (filter_sublist.map _)
  · exact h.stock.sublist (filter_sublist.map _)
  · exact fun item hitem => h.stocked item (mem_of_mem_filter hitem)

/-- An auction that nobody bid for ends with a mail of its item. -/
theorem Balanced.closeUnbid (h : Balanced env players start s) (hmem : auction ∈ s.auctions)
    (hnone : auction.bidder = 0) (receiver : Nat) (answer : MailAuctionAnswers) (item : Item) :
    Balanced env players start (((s.sendMailTo receiver auction answer 0 [item]).removeAItem
      auction.itemGUIDLow).removeAuction auction) := by
  have hunbid := h.unbid auction hmem hnone
  have hend : ((s.sendMailTo receiver auction answer 0 [item]).removeAItem
      auction.itemGUIDLow).removeAuction auction = { s with
        mails := s.mails ++ [⟨receiver, answer, auction.id, 0, [item]⟩]
        ledger := s.ledger ++ []
        mAitems := s.mAitems.filter fun item => item.guid ≠ auction.itemGUIDLow
        auctions := s.auctions.filter fun other => other.id ≠ auction.id } := by
    rw [append_nil]
    rfl
  rw [hend]
  refine h.close hmem h.purses ?_ (fun _ _ => rfl) ?_ (.inl rfl)
  · simp [hunbid]
  · intro player id
    simp [Mail.refund, sales, stake, hunbid]

/-- The item of an auction is in stock. -/
theorem Balanced.exists_item (h : Balanced env players start s)
    (hmem : auction ∈ s.auctions) : ∃ item, s.getAItem auction.itemGUIDLow = some item := by
  obtain ⟨item, hitem, hguid, -⟩ := h.stored auction hmem
  exact ⟨item, hguid ▸ KeyedList.find?_of_mem h.stock hitem⟩

section

variable (hserved : Served env players)
include hserved

section

variable (h : Balanced env players start s)
include h

/-- What the owner gets is the bid and his deposit without the cut. -/
theorem profit_eq (hmem : auction ∈ s.auctions) :
    (profit env auction : Int) = auction.bid + auction.deposit - env.getAuctionCut auction := by
  obtain ⟨hbid, hdeposit, -⟩ := h.caps auction hmem
  have hcut := hserved.cut auction
  unfold profit MAX_MONEY_AMOUNT at *
  omega

/-- A sale keeps the balance. -/
theorem Balanced.closeSale (hmem : auction ∈ s.auctions) (hbidder : auction.bidder ∈ players) :
    Balanced env players start (s.closeSale env auction) := by
  obtain ⟨item, hfound⟩ := h.exists_item hmem
  have hprofit := profit_eq hserved h hmem
  rw [closeSale_eq hserved (h.parties auction hmem).1 hbidder hfound]
  refine h.close hmem h.purses ?_ ?_ ?_ ?_
  · simp only [saleMails, map_cons, map_nil, sum_cons, sum_nil,
      LedgerEntry.flow, hprofit]
    omega
  · exact fun player id => rfl
  · intro player id
    simp [saleMails, Mail.refund, sales, LedgerEntry.sold?]
  · exact .inr rfl

/-- An auction that nobody bid for goes back. -/
theorem Balanced.expire
    (hmem : auction ∈ s.auctions) : Balanced env players start (s.expire env auction) := by
  unfold AuctionState.expire
  split
  · next hnone =>
    obtain ⟨item, hfound⟩ := h.exists_item hmem
    have hmail : s.sendAuctionExpiredMail env auction =
        s.sendMailTo auction.owner auction .expired 0 [item] := by
      unfold sendAuctionExpiredMail
      rw [hfound]
      exact if_pos (receives_of_mem hserved (h.parties auction hmem).1)
    rw [hmail]
    exact h.closeUnbid hmem hnone.1 _ _ item
  · next hbid =>
    have hbidder : auction.bidder ≠ 0 := fun hnone => hbid ⟨hnone, h.unbid auction hmem hnone⟩
    exact h.closeSale hserved hmem ((h.parties auction hmem).2.resolve_left hbidder)

/-- A cancellation gives the bidder his money back for the cut of it. -/
theorem Balanced.removeItem
    (hplayer : player ∈ players) (creature : Option AuctionHouses) (auctionId : Nat) :
    Balanced env players start (s.handleAuctionRemoveItem env player creature auctionId) := by
  unfold handleAuctionRemoveItem
  split
  · exact h
  · next auction item hcancel =>
    obtain ⟨hmem, howner, hitem, hcut⟩ := cancelled_spec hcancel
    have hpurse := h.purses player hplayer
    by_cases hnone : auction.bidder = 0
    · rw [if_neg (by omega)]
      exact h.closeUnbid hmem hnone _ _ item
    · have hafford := hcut hnone
      have hmail : s.sendAuctionCancelledToBidderMail env auction =
          s.sendMailTo auction.bidder auction .cancelledToBidder auction.bid [] :=
        if_pos (receives_of_mem hserved ((h.parties auction hmem).2.resolve_left hnone))
      have hcast : toInt64 (env.getAuctionCut auction) = env.getAuctionCut auction := by
        apply toInt64_of_lt
        unfold MAX_MONEY_AMOUNT at hpurse
        omega
      have htaken : (Entities.modifyMoney (s.money player)
          (-toInt64 (env.getAuctionCut auction))).2 =
          s.money player - env.getAuctionCut auction := by
        rw [hcast, modifyMoney_neg hafford]
      have hend : ((({ (s.sendAuctionCancelledToBidderMail env auction).modifyMoney player
          (-toInt64 (env.getAuctionCut auction)) with
            ledger := s.ledger ++ [.cancel auction] } : AuctionState).sendMailTo player auction
              .canceled 0 [item]).removeAItem auction.itemGUIDLow).removeAuction auction = { s with
            money := update s.money player
              (s.money player - env.getAuctionCut auction)
            mails := s.mails ++ [{ receiver := auction.bidder, answer := .cancelledToBidder
                                   auctionId := auction.id, money := auction.bid, items := [] },
              { receiver := player, answer := .canceled
                auctionId := auction.id, money := 0, items := [item] }]
            ledger := s.ledger ++ [.cancel auction]
            mAitems := s.mAitems.filter fun item => item.guid ≠ auction.itemGUIDLow
            auctions := s.auctions.filter fun other => other.id ≠ auction.id } := by
        rw [hmail, ← htaken]
        unfold AuctionState.sendMailTo
        dsimp only [AuctionState.modifyMoney, removeAItem, removeAuction]
        rw [append_assoc]
        rfl
      rw [if_pos (by omega)]
      dsimp only
      rw [hend]
      have hmoney := totalMoney_update hplayer s.money
        (s.money player - env.getAuctionCut auction)
      refine h.close hmem (fun other hother => ?_) ?_ (fun _ _ => rfl) ?_ (.inl rfl)
      · by_cases hsame : other = player
        · subst hsame
          rw [update_self]
          omega
        · rw [update_of_ne hsame]
          exact h.purses other hother
      · simp only [map_cons, map_nil, sum_cons, sum_nil, LedgerEntry.flow]
        omega
      · intro other id
        have hnone : sales [LedgerEntry.cancel auction] = [] := rfl
        simp [hnone, Mail.refund, stake, and_comm]

end

end

/-! ### A new auction -/

/-- A new auction of an item that is not in the auction house yet keeps the balance. -/
theorem Balanced.createAuction (h : Balanced env players start s) (hplayer : player ∈ players)
    (house : AuctionHouses) {item : Item} (hfresh : item.guid ∉ s.mAitems.map Item.guid)
    (hguid : item.guid < s.nextItemGuid) (bid : Nat) (hbuyout : buyout ≤ MAX_MONEY_AMOUNT)
    (etime : Nat) {deposit : Nat} (hdeposit : deposit ≤ MAX_MONEY_AMOUNT) {inventory : List Item}
    (hcarried : ∀ item ∈ inventory, item.guid < s.nextItemGuid) :
    Balanced env players start
      (s.createAuction env player house item bid buyout etime deposit inventory) := by
  have hskip : ∀ auction ∈ s.auctions ++ sales s.ledger, auction.id < s.nextAuctionId + 1 :=
    fun auction hmem => Nat.lt_succ_of_lt (h.fresh auction hmem)
  unfold AuctionState.createAuction
  dsimp only
  split
  · exact ⟨h.conserved, h.accounts, h.unbid, h.purses, h.caps, h.parties, h.ids, hskip, h.stored,
      h.apart, h.stock, h.stocked, h.carried⟩
  · next t ht =>
    obtain ⟨map', -, rfl⟩ := pendingAuctionAdd_spec ht
    refine ⟨?_, fun other id => ?_, ?_, h.purses, ?_, ?_, ?_, ?_, ?_, ?_, ?_, ?_, ?_⟩
    · have hconserved := h.conserved
      unfold held at hconserved ⊢
      simpa [addAuction, addAItem] using hconserved
    · have haccounts := h.accounts other id
      unfold paidBy refundedTo at haccounts ⊢
      simpa [addAuction, addAItem, stake] using haccounts
    · exact forall_mem_append.mpr ⟨h.unbid, forall_mem_singleton.mpr fun _ => rfl⟩
    · exact forall_mem_append.mpr
        ⟨h.caps, forall_mem_singleton.mpr ⟨Nat.zero_le _, hdeposit, hbuyout⟩⟩
    · exact forall_mem_append.mpr
        ⟨h.parties, forall_mem_singleton.mpr ⟨hplayer, .inl rfl⟩⟩
    · rw [addAuction, append_assoc, singleton_append,
        (perm_middle.map AuctionEntry.id).nodup_iff, map_cons, nodup_cons]
      refine ⟨fun hin => ?_, h.ids⟩
      obtain ⟨auction, hmem, hid⟩ := mem_map.mp hin
      have hlt := h.fresh auction hmem
      dsimp only at hid
      omega
    · rw [addAuction, append_assoc, singleton_append]
      intro auction hmem
      rcases mem_cons.mp (perm_middle.mem_iff.mp hmem) with rfl | hold
      · exact Nat.lt_succ_self _
      · exact hskip auction hold
    · refine forall_mem_append.mpr ⟨fun auction hmem => ?_, forall_mem_singleton.mpr ?_⟩
      · obtain ⟨old, hold, hrest⟩ := h.stored auction hmem
        exact ⟨old, mem_append_left _ hold, hrest⟩
      · exact ⟨item, mem_append_right _ mem_cons_self, rfl, rfl, rfl⟩
    · rw [addAuction, map_append, map_singleton,
        (perm_append_singleton _ _).nodup_iff, nodup_cons]
      refine ⟨fun hin => hfresh ?_, h.apart⟩
      obtain ⟨auction, hmem, hlot⟩ := mem_map.mp hin
      obtain ⟨old, hold, hguid', -⟩ := h.stored auction hmem
      exact mem_map.mpr ⟨old, hold, hguid'.trans hlot⟩
    · rw [addAuction, addAItem, map_append, map_singleton,
        (perm_append_singleton _ _).nodup_iff, nodup_cons]
      exact ⟨hfresh, h.stock⟩
    · exact forall_mem_append.mpr ⟨h.stocked, forall_mem_singleton.mpr hguid⟩
    · intro other
      by_cases hsame : other = player
      · subst hsame
        dsimp only
        rw [update_self]
        exact hcarried
      · dsimp only
        rw [update_of_ne hsame]
        exact h.carried other

/-- An item that can be sold is the player's and not in the auction house. -/
theorem sellableItem_spec {entry : Nat} {request : Nat × Nat} {item : Item}
    (h : s.sellableItem env player entry request = some item) :
    item ∈ s.inventory player ∧ item.guid ∉ s.mAitems.map Item.guid := by
  unfold sellableItem at h
  simp only [Option.bind_eq_bind, Option.bind_eq_some_iff, Option.ite_none_left_eq_some,
    Option.some.injEq, not_or] at h
  obtain ⟨found, hfound, ⟨hnone, -⟩, rfl⟩ := h
  refine ⟨mem_of_find?_eq_some hfound, fun hin => ?_⟩
  obtain ⟨old, hold, hguid⟩ := mem_map.mp hin
  have hnot : s.getAItem found.guid = none := by simpa using hnone
  have := find?_eq_none.mp hnot old hold
  simp [hguid] at this

theorem auctionOffer_spec {bid etime : Nat} {creature : Option AuctionHouses}
    {requests : List (Nat × Nat)} {house : AuctionHouses} {item : Item} {items : List Item}
    {etime' : Nat} (h : s.auctionOffer env player creature requests bid buyout etime =
      some (house, item :: items, etime')) :
    buyout ≤ MAX_MONEY_AMOUNT ∧ item ∈ s.inventory player ∧
      item.guid ∉ s.mAitems.map Item.guid := by
  unfold auctionOffer sellableItems at h
  simp only [Option.bind_eq_bind, Option.bind_eq_some_iff, Option.ite_none_left_eq_some,
    Option.some.injEq, Option.pure_def, Prod.mk.injEq, not_or, not_lt] at h
  obtain ⟨-, -, -, ⟨-, hbuyout⟩, house', -, -, items', ⟨request, hrequest, first, -, found, hfound,
    -, -, -, rfl⟩, -, rfl, -⟩ := h
  refine ⟨hbuyout, ?_⟩
  cases requests with
  | nil => cases hrequest
  | cons head requests =>
    simp only [mapM_cons, Option.bind_eq_bind, Option.bind_eq_some_iff, Option.pure_def,
      Option.some.injEq, cons.injEq] at hfound
    obtain ⟨found, hsellable, -, -, rfl, -⟩ := hfound
    exact sellableItem_spec hsellable

theorem guid_takeItems {requests : List (Nat × Nat)} {inventory : List Item} {n : Nat}
    (h : ∀ item ∈ inventory, item.guid < n) :
    ∀ item ∈ takeItems requests inventory, item.guid < n := by
  intro item hmem
  obtain ⟨old, hold, hkept⟩ := mem_filterMap.mp hmem
  have hguid : item.guid = old.guid := by
    split at hkept
    · cases hkept
      rfl
    · split at hkept
      · cases hkept
      · cases hkept
        rfl
  rw [hguid]
  exact h old hold

theorem Balanced.sellItem (h : Balanced env players start s) (hplayer : player ∈ players)
    (creature : Option AuctionHouses) (requests : List (Nat × Nat)) (bid buyout etime : Nat) :
    Balanced env players start
      (s.handleAuctionSellItem env player creature requests bid buyout etime) := by
  unfold handleAuctionSellItem
  split
  · next house item items etime' hoffer =>
    obtain ⟨hbuyout, hitem, hfresh⟩ := auctionOffer_spec hoffer
    have hpurse := h.purses player hplayer
    dsimp only
    split
    · exact h
    · next hmoney =>
      have hdeposit : env.getAuctionDeposit house etime' item (requests.map Prod.snd).sum ≤
          MAX_MONEY_AMOUNT := by
        have : env.getAuctionDeposit house etime' item (requests.map Prod.snd).sum ≤
            s.money player := by simpa [hasEnoughMoney] using hmoney
        omega
      split
      · refine h.createAuction hplayer house hfresh (h.carried player item hitem) bid hbuyout
          etime' hdeposit ?_
        exact fun other hother => h.carried player other (mem_of_mem_filter hother)
      · split
        · exact h
        · next newItem hclone =>
          have hguid : newItem.guid = s.nextItemGuid := by
            unfold cloneItem at hclone
            split at hclone
            · cases hclone
            · cases hclone
              rfl
          have hnext : Balanced env players start
              { s with nextItemGuid := s.nextItemGuid + 1 } :=
            ⟨h.conserved, h.accounts, h.unbid, h.purses, h.caps, h.parties, h.ids, h.fresh,
              h.stored, h.apart, h.stock, fun old hold => Nat.lt_succ_of_lt (h.stocked old hold),
              fun other old hold => Nat.lt_succ_of_lt (h.carried other old hold)⟩
          refine hnext.createAuction hplayer house ?_ ?_ bid hbuyout etime' hdeposit ?_
          · intro hin
            obtain ⟨old, hold, heq⟩ := mem_map.mp hin
            have hlt := h.stocked old hold
            omega
          · rw [hguid]
            exact Nat.lt_succ_self _
          · exact guid_takeItems fun old hold => Nat.lt_succ_of_lt (h.carried player old hold)
  · exact h

/-! ### Runs -/

/-- The request is of one of the players. -/
def AuctionRequest.By (players : Finset Nat) : AuctionRequest → Prop
  | .sellItem player _ _ _ _ _ => player ∈ players
  | .placeBid player _ _ _ => player ∈ players
  | .removeItem player _ _ => player ∈ players
  | _ => True

theorem auctions_closeSale (auction : AuctionEntry) :
    (s.closeSale env auction).auctions = s.auctions.filter fun other => other.id ≠ auction.id := by
  have hbooks : ((s.sendAuctionSuccessfulMail env auction).sendAuctionWonMail env auction).books =
      { s.books with ledger := s.ledger ++ s.saleOf env auction } :=
    (books_sendAuctionWonMail auction).trans (books_sendAuctionSuccessfulMail auction)
  have hauctions := congrArg Books.auctions hbooks
  exact congrArg (filter fun other => other.id ≠ auction.id) hauctions

/-- A bid keeps the balance, and is somebody's below the price of a buyout. -/
theorem Balanced.placeBid (hserved : Served env players) (h : Balanced env players start s)
    (hpriced : Priced s) (hplayer : player ∈ players) (creature : Option AuctionHouses)
    (auctionId price : Nat) :
    Balanced env players start (s.handleAuctionPlaceBid env player creature auctionId price) ∧
      Priced (s.handleAuctionPlaceBid env player creature auctionId price) := by
  have hzero := (hserved.known player hplayer).1
  have hpurse := h.purses player hplayer
  unfold handleAuctionPlaceBid
  split
  · exact ⟨h, hpriced⟩
  · next auction hbid =>
    obtain ⟨hmem, -, hhigher, hprice⟩ := bidOn_spec hbid
    obtain ⟨howner, hparty⟩ := h.parties auction hmem
    split
    · next hlow =>
      rw [placeBid_eq hserved hzero hparty hprice hpurse]
      refine ⟨h.raise hplayer hzero hmem hhigher.le hprice, fun other hother => ?_⟩
      rcases mem_raise h.auction_ids hmem hother with rfl | ⟨hold, -⟩
      · unfold bidBy
        dsimp only
        omega
      · exact hpriced other hold
    · next hhigh =>
      have hbuyout : auction.bid < auction.buyout :=
        (hpriced auction hmem).2.resolve_left (by omega)
      obtain ⟨item, hfound⟩ := h.exists_item hmem
      have hraised := h.raise hplayer hzero hmem hbuyout.le (by omega)
      have hsold : soldTo player auction ∈ (s.raise player auction.buyout auction).auctions := by
        refine mem_map.mpr ⟨auction, hmem, ?_⟩
        rw [if_pos rfl]
        rfl
      have hmail : (s.raise player auction.buyout auction).sendAuctionSalePendingMail env
          (soldTo player auction) = (s.raise player auction.buyout auction).sendMailTo auction.owner
            (soldTo player auction) .salePending 0 [] := if_pos (receives_of_mem hserved howner)
      rw [buyOut_eq hserved hplayer hparty (by omega) hpurse hbuyout howner hfound, hmail]
      have hmailed := hraised.sendMailTo auction.owner (soldTo player auction) .salePending []
      refine ⟨hmailed.closeSale hserved hsold hplayer, ?_⟩
      unfold Priced
      rw [auctions_closeSale]
      intro other hother
      obtain ⟨hin, hne⟩ := mem_filter.mp hother
      rcases mem_raise h.auction_ids hmem hin with rfl | ⟨hold, -⟩
      · exact absurd rfl (of_decide_eq_true hne)
      · exact hpriced other hold

/-- An update ends auctions one by one. -/
theorem Balanced.update (hserved : Served env players) (h : Balanced env players start s)
    (hpriced : Priced s) (house : AuctionHouses) :
    Balanced env players start (s.update env house) ∧ Priced (s.update env house) := by
  have hloop : ∀ (l : List AuctionEntry) (t : AuctionState), Balanced env players start t →
      Priced t → (l.map AuctionEntry.id).Nodup → (∀ auction ∈ l, auction ∈ t.auctions) →
      Balanced env players start (l.foldl (fun s auction =>
        if auction.expireTime > s.time + 60 then s else s.expire env auction) t) ∧
      Priced (l.foldl (fun s auction =>
        if auction.expireTime > s.time + 60 then s else s.expire env auction) t) := by
    intro l
    induction l with
    | nil => exact fun t ht hp _ _ => ⟨ht, hp⟩
    | cons auction l ih =>
      intro t ht hp hnodup hlive
      rw [map_cons, nodup_cons] at hnodup
      rw [foldl_cons]
      split
      · exact ih t ht hp hnodup.2 fun other hother => hlive other (mem_cons_of_mem _ hother)
      · have hauctions : (t.expire env auction).auctions =
            t.auctions.filter fun other => other.id ≠ auction.id :=
          congrArg Books.auctions (books_expire auction)
        refine ih _ (ht.expire hserved (hlive auction mem_cons_self)) ?_ hnodup.2 ?_
        · unfold Priced
          rw [hauctions]
          exact fun other hother => hp other (mem_of_mem_filter hother)
        · intro other hother
          rw [hauctions]
          refine mem_filter.mpr ⟨hlive other (mem_cons_of_mem _ hother), ?_⟩
          apply decide_eq_true
          intro heq
          exact hnodup.1 (mem_map.mpr ⟨other, hother, heq⟩)
  refine hloop _ s h hpriced (h.auction_ids.sublist (filter_sublist.map _)) ?_
  exact fun auction hmem => mem_of_mem_filter hmem

theorem Balanced.request (hserved : Served env players) (h : Balanced env players start s)
    (hpriced : Priced s) {request : AuctionRequest} (hby : request.By players) :
    Balanced env players start (s.request env request) ∧ Priced (s.request env request) := by
  cases request with
  | sellItem player creature requests bid buyout etime =>
    refine ⟨h.sellItem hby creature requests bid buyout etime, ?_⟩
    have hlists := books_sellItem env s player creature requests bid buyout etime
    change ∀ auction ∈ (s.handleAuctionSellItem env player creature requests bid buyout
      etime).books.auctions, _
    generalize (s.handleAuctionSellItem env player creature requests bid buyout etime).books = b
      at hlists
    cases hlists with
    | refused => exact hpriced
    | skipped => exact hpriced
    | listed auction map' _ _ hbid hbidder _ =>
      refine forall_mem_append.mpr ⟨hpriced, forall_mem_singleton.mpr ?_⟩
      omega
  | placeBid player creature auctionId price =>
    exact h.placeBid hserved hpriced hby creature auctionId price
  | removeItem player creature auctionId =>
    refine ⟨h.removeItem hserved hby creature auctionId, fun auction hmem => hpriced auction ?_⟩
    change auction ∈ (s.handleAuctionRemoveItem env player creature auctionId).books.auctions
      at hmem
    cases hcancel : s.cancelled env player creature auctionId with
    | none =>
      unfold handleAuctionRemoveItem at hmem
      rw [hcancel] at hmem
      exact hmem
    | some found =>
      obtain ⟨_, _, -, -, hbooks⟩ := books_cancel (h.purses player hby) hcancel
      rw [hbooks] at hmem
      exact mem_of_mem_filter hmem
  | update house => exact h.update hserved hpriced house
  | presence => exact ⟨⟨h.conserved, h.accounts, h.unbid, h.purses, h.caps, h.parties, h.ids,
      h.fresh, h.stored, h.apart, h.stock, h.stocked, h.carried⟩, hpriced⟩
  | elapse => exact ⟨⟨h.conserved, h.accounts, h.unbid, h.purses, h.caps, h.parties, h.ids,
      h.fresh, h.stored, h.apart, h.stock, h.stocked, h.carried⟩, hpriced⟩

/-- An auction house without auctions and without history. -/
structure OpensEmpty (players : Finset Nat) (s : AuctionState) : Prop where
  auctions : s.auctions = []
  mAitems : s.mAitems = []
  ledger : s.ledger = []
  mails : ∀ mail ∈ s.mails, mail.answer ≠ .outbidded ∧ mail.answer ≠ .cancelledToBidder
  purses : ∀ player ∈ players, s.money player ≤ MAX_MONEY_AMOUNT
  carried : ∀ player, ∀ item ∈ s.inventory player, item.guid < s.nextItemGuid

theorem OpensEmpty.balanced (h : OpensEmpty players s) : Balanced env players s s := by
  have hnone : ∀ player id, refundedTo s player id = 0 := by
    intro player id
    apply sum_eq_zero
    intro x hx
    obtain ⟨mail, hmail, rfl⟩ := mem_map.mp hx
    obtain ⟨houtbid, hcancelled⟩ := h.mails mail hmail
    exact if_neg fun heq => heq.2.2.elim houtbid hcancelled
  have hsales : sales s.ledger = [] := by
    rw [h.ledger]
    rfl
  refine ⟨?_, fun player id => ?_, ?_, h.purses, ?_, ?_, ?_, ?_, ?_, ?_, ?_, ?_, h.carried⟩
  · rw [h.ledger]
    exact (add_zero _).symm
  · unfold paidBy
    rw [hnone, hsales, h.ledger, h.auctions]
    rfl
  · rw [h.auctions]
    exact forall_mem_nil _
  · rw [h.auctions]
    exact forall_mem_nil _
  · rw [h.auctions]
    exact forall_mem_nil _
  · rw [h.auctions, hsales]
    exact nodup_nil
  · rw [h.auctions, hsales]
    exact forall_mem_nil _
  · rw [h.auctions]
    exact forall_mem_nil _
  · rw [h.auctions]
    exact nodup_nil
  · rw [h.mAitems]
    exact nodup_nil
  · rw [h.mAitems]
    exact forall_mem_nil _

/-- Whatever the players ask for, the money and the items of the auction house are held in
escrow. -/
theorem escrow_run (hserved : Served env players) (h : OpensEmpty players s)
    {requests : List AuctionRequest}
    (hby : ∀ request ∈ requests, request.By players) :
    Escrow env players s (run (AuctionState.request env) s requests) := by
  have hpriced : Priced s := by
    unfold Priced
    rw [h.auctions]
    exact forall_mem_nil _
  have hadmits : Admits (AuctionState.request env) (fun _ request => request.By players) s requests :=
    admits_of_forall_mem fun request hmem _ => hby request hmem
  have hkept : Balanced env players s (run (AuctionState.request env) s requests) ∧
      Priced (run (AuctionState.request env) s requests) := by
    refine @run_invariant_of_admits _ _ _ _ _
      (fun t : AuctionState => Balanced env players s t ∧ Priced t) ⟨h.balanced, hpriced⟩
      (fun t request ht hin => ht.1.request hserved ht.2 hin) requests hadmits
  exact hkept.1.escrow hkept.2

theorem served_fixedDeposits : Served fixedDeposits {1, 2} where
  known player hmem := by
    have hne : player ≠ 0 := by
      rintro rfl
      exact absurd hmem (by decide)
    exact ⟨hne, hne, rfl⟩
  cut auction := Nat.div_le_self auction.bid 20

theorem opensEmpty_twoPlayers : OpensEmpty {1, 2} twoPlayers where
  auctions := rfl
  mAitems := rfl
  ledger := rfl
  mails := forall_mem_nil _
  purses _ _ := show 5000 ≤ MAX_MONEY_AMOUNT by decide
  carried player item hmem := by
    change item ∈ (if player = 1 then _ else _) at hmem
    split at hmem
    · rw [mem_singleton.mp hmem]
      decide
    · cases hmem

/-- A sale, two bids of the same player and the expiry of the auction. -/
theorem escrow_run_twoPlayers :
    Escrow fixedDeposits {1, 2} twoPlayers (run (AuctionState.request fixedDeposits) twoPlayers
      [.sellItem 1 (some .neutral) [(7, 1)] 500 2000 720, .placeBid 2 (some .neutral) 1 600,
        .placeBid 2 (some .neutral) 1 900, .elapse 43200, .update .neutral]) := by
  apply escrow_run served_fixedDeposits opensEmpty_twoPlayers
  simp [AuctionRequest.By]

end TrinityCore.AuctionHouse
