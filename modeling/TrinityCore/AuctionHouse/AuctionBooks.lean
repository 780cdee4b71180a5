import TrinityCore.AuctionHouse.AuctionHouseHandler

/-!
# The books of the auction house

What requests do to the auctions, the lists of pending ones and the ledger, whatever becomes of
the mails and the items.
-/

namespace TrinityCore.AuctionHouse

open List

open Entities

variable {env : AuctionEnv}

/-- All but the mails and the items. -/
structure Books where
  time : Nat
  connected : Nat → Bool
  money : Nat → Nat
  nextAuctionId : Nat
  auctions : List AuctionEntry
  pendingAuctionMap : List PendingAuctions
  ledger : List LedgerEntry
  unpaid : List Nat

def AuctionState.books (s : AuctionState) : Books :=
  { time := s.time
    connected := s.connected
    money := s.money
    nextAuctionId := s.nextAuctionId
    auctions := s.auctions
    pendingAuctionMap := s.pendingAuctionMap
    ledger := s.ledger
    unpaid := s.unpaid }

variable {id auctionId player price amount : Nat} {auction : AuctionEntry}
  {creature : Option AuctionHouses}

namespace AuctionState

/-! ### What the mails leave alone -/

variable {s : AuctionState}

@[simp] theorem books_sendMailTo (receiver : Nat) (auction : AuctionEntry)
    (answer : MailAuctionAnswers) (money : Nat) (items : List Item) :
    (s.sendMailTo receiver auction answer money items).books = s.books := rfl

@[simp] theorem books_removeAItem (guid : Nat) : (s.removeAItem guid).books = s.books := rfl

@[simp] theorem books_sendAuctionWonMail (auction : AuctionEntry) :
    (s.sendAuctionWonMail env auction).books = s.books := by
  unfold sendAuctionWonMail
  split
  · rfl
  · split <;> rfl

@[simp] theorem books_sendAuctionExpiredMail (auction : AuctionEntry) :
    (s.sendAuctionExpiredMail env auction).books = s.books := by
  unfold sendAuctionExpiredMail
  split
  · rfl
  · split <;> rfl

@[simp] theorem books_sendAuctionSalePendingMail (auction : AuctionEntry) :
    (s.sendAuctionSalePendingMail env auction).books = s.books := by
  unfold sendAuctionSalePendingMail
  split <;> rfl

@[simp] theorem books_sendAuctionOutbiddedMail (auction : AuctionEntry) :
    (s.sendAuctionOutbiddedMail env auction).books = s.books := by
  unfold sendAuctionOutbiddedMail
  split <;> rfl

@[simp] theorem books_sendAuctionCancelledToBidderMail (auction : AuctionEntry) :
    (s.sendAuctionCancelledToBidderMail env auction).books = s.books := by
  unfold sendAuctionCancelledToBidderMail
  split <;> rfl

/-- What the ledger says of a sale. -/
def saleOf (env : AuctionEnv) (s : AuctionState) (auction : AuctionEntry) : List LedgerEntry :=
  if s.receives env auction.owner then [.sale auction] else []

theorem books_sendAuctionSuccessfulMail (auction : AuctionEntry) :
    (s.sendAuctionSuccessfulMail env auction).books =
      { s.books with ledger := s.ledger ++ s.saleOf env auction } := by
  unfold sendAuctionSuccessfulMail saleOf
  split
  · rfl
  · rw [append_nil]
    rfl

theorem saleOf_congr {t : AuctionState} (h : t.connected = s.connected) (auction : AuctionEntry) :
    t.saleOf env auction = s.saleOf env auction := by
  unfold saleOf receives
  rw [h]

/-! ### What requests do to the books -/

theorem getAuction_spec {house : AuctionHouses} (h : s.getAuction house id = some auction) :
    auction ∈ s.auctions ∧ auction.id = id ∧ auction.auctionHouseEntry = house := by
  have hfound := find?_some h
  simp only [Bool.and_eq_true, decide_eq_true_eq] at hfound
  exact ⟨mem_of_find?_eq_some h, hfound⟩

theorem bidOn_spec (h : s.bidOn env player creature auctionId price = some auction) :
    auction ∈ s.auctions ∧ auction.owner ≠ player ∧ auction.bid < price ∧
      price ≤ s.money player := by
  unfold bidOn at h
  simp only [Option.bind_eq_bind, Option.ite_none_left_eq_some, Option.bind_eq_some_iff,
    Option.some.injEq] at h
  obtain ⟨-, house, -, found, hfound, howner, -, hprice, -, hmoney, rfl⟩ := h
  refine ⟨(getAuction_spec hfound).1, howner, ?_, ?_⟩
  · omega
  · simpa [hasEnoughMoney] using hmoney

theorem cancelled_spec {item : Item}
    (h : s.cancelled env player creature auctionId = some (auction, item)) :
    auction ∈ s.auctions ∧ auction.owner = player ∧
      s.getAItem auction.itemGUIDLow = some item ∧
      (auction.bidder ≠ 0 → env.getAuctionCut auction ≤ s.money player) := by
  unfold cancelled at h
  simp only [Option.bind_eq_bind, Option.ite_none_left_eq_some, Option.bind_eq_some_iff,
    Option.pure_def, Option.some.injEq, Prod.mk.injEq, not_not] at h
  obtain ⟨house, -, found, hfound, howner, item', hitem, hcut, rfl, rfl⟩ := h
  refine ⟨(getAuction_spec hfound).1, howner, hitem, fun hbidder => ?_⟩
  simp only [hasEnoughMoney, decide_eq_true_eq, not_and, not_le] at hcut
  have := hcut (by omega)
  omega

/-- Spending leaves no player with more money. -/
theorem spend_le (player amount other : Nat) :
    (s.modifyMoney player (-amount)).money other ≤ s.money other := by
  unfold modifyMoney Entities.modifyMoney
  by_cases hother : other = player
  · subst hother
    simp only [Function.update_self]
    split
    · rfl
    · split
      · dsimp only
        split <;> omega
      · omega
  · simp [Function.update_of_ne hother]

theorem modifyMoney_le (h : amount ≤ MAX_MONEY_AMOUNT) (other : Nat) :
    (s.modifyMoney player (-toInt64 amount)).money other ≤ s.money other := by
  have hcast : toInt64 amount = amount := by
    apply toInt64_of_lt
    unfold MAX_MONEY_AMOUNT at h
    omega
  rw [hcast]
  exact spend_le player amount other

theorem books_modifyAuction (id : Nat) (f : AuctionEntry → AuctionEntry) :
    (s.modifyAuction id f).books =
      { s.books with auctions := s.books.auctions.map fun auction =>
          if auction.id = id then f auction else auction } := rfl

theorem books_removeAuction (auction : AuctionEntry) :
    (s.removeAuction auction).books =
      { s.books with auctions := s.books.auctions.filter fun other => other.id ≠ auction.id } := rfl

/-- What a payment does to books that are those of `s`. -/
theorem books_pay {t : AuctionState} (hbooks : t.books = s.books) (player auction : Nat)
    (h : amount ≤ MAX_MONEY_AMOUNT) :
    ∃ money taken, (∀ other, money other ≤ s.money other) ∧
      (t.pay player auction amount).books =
        { s.books with
          money
          ledger := s.ledger ++ [.bid player auction taken] } := by
  have hmoney : t.money = s.money := congrArg Books.money hbooks
  have hledger : t.ledger = s.ledger := congrArg Books.ledger hbooks
  refine ⟨(t.pay player auction amount).money,
    t.money player - (t.pay player auction amount).money player, fun other => ?_, ?_⟩
  · rw [← hmoney]
    exact modifyMoney_le h other
  · rw [← hbooks, ← hledger]
    rfl

/-- A bid changes the price and the bidder, and the money of the one who bids. -/
theorem books_placeBid (h : price ≤ MAX_MONEY_AMOUNT) :
    ∃ money taken, (∀ other, money other ≤ s.money other) ∧
      (s.placeBid env player price auction).books =
        { s.books with
          money
          ledger := s.ledger ++ [.bid player auction.id taken]
          auctions := s.auctions.map fun other =>
            if other.id = auction.id then { other with bidder := player, bid := price }
            else other } := by
  unfold placeBid
  split
  · split
    · obtain ⟨money, taken, hle, heq⟩ :=
        books_pay (s := s) rfl player auction.id (by omega : price - auction.bid ≤ _)
      refine ⟨money, taken, hle, ?_⟩
      rw [books_modifyAuction, heq]
      rfl
    · have hmailed : (s.sendAuctionOutbiddedMail env auction).books = s.books :=
        books_sendAuctionOutbiddedMail auction
      obtain ⟨money, taken, hle, heq⟩ := books_pay hmailed player auction.id h
      refine ⟨money, taken, hle, ?_⟩
      rw [books_modifyAuction, heq]
      rfl
  · obtain ⟨money, taken, hle, heq⟩ := books_pay (s := s) rfl player auction.id h
    refine ⟨money, taken, hle, ?_⟩
    rw [books_modifyAuction, heq]
    rfl

/-- The auction as it is sold to the player. -/
def soldTo (player : Nat) (auction : AuctionEntry) : AuctionEntry :=
  { auction with
    bidder := player
    bid := auction.buyout }

/-- What a sale does once the buyer has paid. -/
def settleSale (env : AuctionEnv) (paid : AuctionState) (auction : AuctionEntry) : AuctionState :=
  ((((paid.sendAuctionSalePendingMail env auction).sendAuctionSuccessfulMail env
    auction).sendAuctionWonMail env auction).removeAItem auction.itemGUIDLow).removeAuction auction

theorem books_settleSale (paid : AuctionState) (auction : AuctionEntry) :
    (paid.settleSale env auction).books =
      { paid.books with
        ledger := paid.ledger ++ paid.saleOf env auction
        auctions := paid.auctions.filter fun other => other.id ≠ auction.id } := by
  have hpending : (paid.sendAuctionSalePendingMail env auction).books = paid.books :=
    books_sendAuctionSalePendingMail auction
  have hledger : (paid.sendAuctionSalePendingMail env auction).ledger = paid.ledger :=
    congrArg Books.ledger hpending
  rw [settleSale, books_removeAuction, books_removeAItem, books_sendAuctionWonMail,
    books_sendAuctionSuccessfulMail, hpending, hledger,
    saleOf_congr (congrArg Books.connected hpending)]
  rfl

/-- A buyout ends the auction with a sale. -/
theorem books_buyOut (env : AuctionEnv) (s : AuctionState) (player : Nat)
    (hbuyout : auction.buyout ≤ MAX_MONEY_AMOUNT) (hbid : auction.bid < auction.buyout) :
    ∃ money taken, (∀ other, money other ≤ s.money other) ∧
      (s.buyOut env player auction).books =
        { s.books with
          money
          ledger := s.ledger ++ .bid player auction.id taken ::
            s.saleOf env (soldTo player auction)
          auctions := s.auctions.filter fun other => other.id ≠ auction.id } := by
  have hpaid : ∃ paid : AuctionState, ∃ money taken, (∀ other, money other ≤ s.money other) ∧
      paid.books =
        { s.books with
          money
          ledger := s.ledger ++ [.bid player auction.id taken] } ∧
      s.buyOut env player auction = paid.settleSale env (soldTo player auction) := by
    unfold buyOut
    split
    · have hraise : (2 ^ 64 + auction.buyout - auction.bid) % 2 ^ 64 ≤ MAX_MONEY_AMOUNT := by
        unfold MAX_MONEY_AMOUNT at *
        omega
      obtain ⟨money, taken, hle, heq⟩ := books_pay (s := s) rfl player auction.id hraise
      exact ⟨_, money, taken, hle, heq, by rfl⟩
    · obtain ⟨money, taken, hle, heq⟩ := books_pay (s := s) rfl player auction.id hbuyout
      split
      · refine ⟨_, money, taken, hle, ?_, by rfl⟩
        rw [books_sendAuctionOutbiddedMail, heq]
      · exact ⟨_, money, taken, hle, heq, by rfl⟩
  obtain ⟨paid, money, taken, hle, hbooks, heq⟩ := hpaid
  have hledger : paid.ledger = s.ledger ++ [.bid player auction.id taken] :=
    congrArg Books.ledger hbooks
  have hauctions : paid.auctions = s.auctions := congrArg Books.auctions hbooks
  refine ⟨money, taken, hle, ?_⟩
  rw [heq, books_settleSale, hbooks, hledger, hauctions,
    saleOf_congr (congrArg Books.connected hbooks), append_assoc]
  rfl

/-- A cancellation ends the auction, for the cut of a bid. -/
theorem books_cancel (hpurse : s.money player ≤ MAX_MONEY_AMOUNT) {item : Item}
    (h : s.cancelled env player creature auctionId = some (auction, item)) :
    ∃ money entries, (∀ other, money other ≤ s.money other) ∧ entries ⊆ [.cancel auction] ∧
      (s.handleAuctionRemoveItem env player creature auctionId).books =
        { s.books with
          money
          ledger := s.ledger ++ entries
          auctions := s.auctions.filter fun other => other.id ≠ auction.id } := by
  unfold handleAuctionRemoveItem
  rw [h]
  dsimp only
  rw [books_removeAuction, books_removeAItem, books_sendMailTo]
  split
  · next hbidder =>
    have hcut := (cancelled_spec h).2.2.2 (by omega)
    have hmailed : (s.sendAuctionCancelledToBidderMail env auction).books = s.books :=
      books_sendAuctionCancelledToBidderMail auction
    have hmoney : (s.sendAuctionCancelledToBidderMail env auction).money = s.money :=
      congrArg Books.money hmailed
    refine ⟨((s.sendAuctionCancelledToBidderMail env auction).modifyMoney player
      (-toInt64 (env.getAuctionCut auction))).money, [.cancel auction], fun other => ?_,
      List.Subset.refl _, ?_⟩
    · rw [← hmoney]
      exact modifyMoney_le (hcut.trans hpurse) other
    · have hauctions : (s.sendAuctionCancelledToBidderMail env auction).auctions = s.auctions :=
        congrArg Books.auctions hmailed
      rw [← hmailed, ← hauctions]
      rfl
  · refine ⟨s.money, [], fun _ => le_rfl, nil_subset _, ?_⟩
    rw [append_nil]
    rfl

/-! ### What an update does to the books -/

/-- What the ledger says of an auction that expires. -/
def expiryOf (env : AuctionEnv) (s : AuctionState) (auction : AuctionEntry) : List LedgerEntry :=
  if auction.bidder = 0 ∧ auction.bid = 0 then [] else s.saleOf env auction

theorem books_expire (auction : AuctionEntry) :
    (s.expire env auction).books =
      { s.books with
        ledger := s.ledger ++ s.expiryOf env auction
        auctions := s.auctions.filter fun other => other.id ≠ auction.id } := by
  unfold expire expiryOf
  dsimp only
  rw [books_removeAuction, books_removeAItem]
  split
  · rw [books_sendAuctionExpiredMail, append_nil]
    rfl
  · rw [books_sendAuctionWonMail, books_sendAuctionSuccessfulMail]
    rfl

/-- The auction ends before the next update. -/
def ends (s : AuctionState) (auction : AuctionEntry) : Bool := auction.expireTime ≤ s.time + 60

/-- An update ends the auctions that are to end, with their sales. -/
theorem books_foldl_expire (l : List AuctionEntry) (s : AuctionState) :
    (l.foldl (fun s auction =>
      if auction.expireTime > s.time + 60 then s else s.expire env auction) s).books =
      { s.books with
        ledger := s.ledger ++ (l.filter s.ends).flatMap (s.expiryOf env)
        auctions := s.auctions.filter fun other =>
          other.id ∉ (l.filter s.ends).map AuctionEntry.id } := by
  induction l generalizing s with
  | nil =>
    simp only [foldl_nil, filter_nil, flatMap_nil, append_nil, map_nil,
      not_mem_nil, not_false_eq_true, decide_true, filter_true]
    rfl
  | cons auction l ih =>
    rw [foldl_cons]
    split
    · next hlate =>
      have hends : s.ends auction = false := by
        unfold ends
        simpa using hlate
      rw [ih, filter_cons_of_neg (by rw [hends]; nofun)]
    · next hdue =>
      have hends : s.ends auction = true := by
        unfold ends
        simpa using hdue
      have hbooks : (s.expire env auction).books =
          { s.books with
            ledger := s.ledger ++ s.expiryOf env auction
            auctions := s.auctions.filter fun other => other.id ≠ auction.id } :=
        books_expire auction
      have hledger : (s.expire env auction).ledger = s.ledger ++ s.expiryOf env auction :=
        congrArg Books.ledger hbooks
      have hauctions : (s.expire env auction).auctions =
          s.auctions.filter fun other => other.id ≠ auction.id := congrArg Books.auctions hbooks
      have htime : (s.expire env auction).time = s.time := congrArg Books.time hbooks
      have hsame : (s.expire env auction).ends = s.ends := by
        unfold ends
        rw [htime]
      have hexpiry : (s.expire env auction).expiryOf env = s.expiryOf env := by
        funext other
        unfold expiryOf
        rw [saleOf_congr (congrArg Books.connected hbooks)]
      rw [ih, hsame, hexpiry, hbooks, hledger, hauctions, filter_cons_of_pos hends,
        flatMap_cons, append_assoc, filter_filter]
      have hids : ∀ other : AuctionEntry,
          (decide (other.id ∉ (l.filter s.ends).map AuctionEntry.id) &&
            decide (other.id ≠ auction.id)) =
          decide (other.id ∉ (auction :: l.filter s.ends).map AuctionEntry.id) := by
        intro other
        simp only [map_cons, mem_cons, not_or, Bool.decide_and, Bool.and_comm]
      simp only [hids]

/-! ### What a sale adds to the books -/

/-- The lists of pending auctions with one more auction in that of the player. -/
structure AddsPending (map : List PendingAuctions) (player id : Nat)
    (map' : List PendingAuctions) : Prop where
  players : (map.map PendingAuctions.player).Nodup → (map'.map PendingAuctions.player).Nodup
  listed : ∃ pending' ∈ map', id ∈ pending'.auctions
  kept : ∀ pending ∈ map, ∃ pending' ∈ map', pending.auctions ⊆ pending'.auctions
  from' : ∀ pending' ∈ map', pending' ∈ map ∨ pending'.player = player ∧
    (pending'.auctions = [id] ∨ ∃ pending ∈ map, pending.player = player ∧
      pending'.auctions = pending.auctions ++ [id])

theorem addsPending_of_none (h : s.pendingOf player = none) :
    AddsPending s.pendingAuctionMap player id (insertLast PendingAuctions.player
      { player, auctions := [id], count := 0 } s.pendingAuctionMap) where
  players hnodup := by
    apply ((perm_insertLast _ _ _).map _).nodup_iff.mpr
    rw [map_cons, nodup_cons]
    refine ⟨?_, hnodup⟩
    intro hmem
    obtain ⟨pending, hpending, heq⟩ := mem_map.mp hmem
    exact find?_eq_none.mp h pending hpending (decide_eq_true heq)
  listed := ⟨_, mem_insertLast.mpr (.inl rfl), mem_singleton_self id⟩
  kept pending hpending := ⟨pending, mem_insertLast.mpr (.inr hpending), List.Subset.refl _⟩
  from' pending' hmem := by
    rcases mem_insertLast.mp hmem with rfl | hold
    · exact .inr ⟨rfl, .inl rfl⟩
    · exact .inl hold

theorem addsPending_of_some {pending : PendingAuctions} (h : s.pendingOf player = some pending) :
    AddsPending s.pendingAuctionMap player id (s.pendingAuctionMap.map fun pending =>
      if pending.player = player then { pending with auctions := pending.auctions ++ [id] }
      else pending) := by
  have hplayer := find?_some h
  have hmem := mem_of_find?_eq_some h
  simp only [decide_eq_true_eq] at hplayer
  refine ⟨fun hnodup => ?_, ?_, fun other hother => ?_, fun pending' hpending' => ?_⟩
  · rw [map_map]
    convert hnodup using 2
    funext other
    simp only [Function.comp]
    split <;> rfl
  · refine ⟨_, mem_map_of_mem hmem, ?_⟩
    simp [hplayer]
  · refine ⟨_, mem_map_of_mem hother, ?_⟩
    split
    · exact subset_append_left _ _
    · exact List.Subset.refl _
  · obtain ⟨other, hother, rfl⟩ := mem_map.mp hpending'
    split
    · next heq => exact .inr ⟨heq, .inr ⟨other, hother, heq, rfl⟩⟩
    · exact .inl hother

theorem pendingAuctionAdd_spec {item : Item} {t : AuctionState}
    (h : s.pendingAuctionAdd env player auction item = some t) :
    ∃ map', AddsPending s.pendingAuctionMap player auction.id map' ∧
      t = { s with pendingAuctionMap := map' } := by
  unfold pendingAuctionAdd at h
  split at h
  · next pending hpending =>
    dsimp only at h
    split at h
    · cases h
      exact ⟨_, addsPending_of_some hpending, rfl⟩
    · cases h
  · next hnone =>
    cases h
    exact ⟨_, addsPending_of_none hnone, rfl⟩

/-- What a sale may do to the books: nothing, use an id, or list a new auction without a bid. -/
inductive Lists (b : Books) (player : Nat) : Books → Prop where
  | refused : Lists b player b
  | skipped : Lists b player { b with nextAuctionId := b.nextAuctionId + 1 }
  | listed (auction : AuctionEntry) (map' : List PendingAuctions)
    (id : auction.id = b.nextAuctionId) (owner : auction.owner = player) (bid : auction.bid = 0)
    (bidder : auction.bidder = 0)
    (adds : AddsPending b.pendingAuctionMap player b.nextAuctionId map') :
    Lists b player { b with
      nextAuctionId := b.nextAuctionId + 1
      auctions := b.auctions ++ [auction]
      pendingAuctionMap := map' }

theorem books_createAuction (env : AuctionEnv) (s : AuctionState) (player : Nat)
    (house : AuctionHouses) (item : Item) (bid buyout etime deposit : Nat)
    (inventory : List Item) :
    Lists s.books player
      (s.createAuction env player house item bid buyout etime deposit inventory).books := by
  unfold createAuction
  dsimp only
  split
  · exact Lists.skipped
  · next t ht =>
    obtain ⟨map', hadds, rfl⟩ := pendingAuctionAdd_spec ht
    exact Lists.listed _ map' rfl rfl rfl rfl hadds

theorem books_sellItem (env : AuctionEnv) (s : AuctionState) (player : Nat)
    (creature : Option AuctionHouses) (requests : List (Nat × Nat)) (bid buyout etime : Nat) :
    Lists s.books player
      (s.handleAuctionSellItem env player creature requests bid buyout etime).books := by
  unfold handleAuctionSellItem
  split
  · dsimp only
    split
    · exact Lists.refused
    · split
      · exact books_createAuction env s player _ _ _ _ _ _ _
      · split
        · exact Lists.refused
        · exact books_createAuction env { s with nextItemGuid := s.nextItemGuid + 1 } player
            _ _ _ _ _ _ _
  · exact Lists.refused

end AuctionState

end TrinityCore.AuctionHouse
