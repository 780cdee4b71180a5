import TrinityCore.AuctionHouse.AuctionBooks
import TrinityCore.Lib.StateMachine

/-!
# Deposits that are charged later

What becomes of the deposits of pending auctions. They are sound as long as no pending auction
ends, every player still has his deposits when they are charged, and no auction is sold whose
owner was offline then.
-/

namespace TrinityCore.AuctionHouse

open List

open Entities

variable {env : AuctionEnv}

/-- A charge that took the deposit of the auction from its owner. -/
def ChargedIn (ledger : List LedgerEntry) (auction : AuctionEntry) : Prop :=
  ∃ deposits taken, .charge auction.owner deposits taken ∈ ledger ∧
    (auction.id, auction.deposit) ∈ deposits

namespace Books

/-- Every pending auction is live, what a charge takes is the deposits it stores, and the deposits
that sales pay were charged before. -/
structure Sound (b : Books) : Prop where
  live : ∀ pending ∈ b.pendingAuctionMap, ∀ id ∈ pending.auctions,
    ∃ auction ∈ b.auctions, auction.id = id
  charged : ∀ player deposits taken, .charge player deposits taken ∈ b.ledger →
    taken = (deposits.map Prod.snd).sum
  covered : ∀ before auction after, b.ledger = before ++ .sale auction :: after →
    auction.deposit = 0 ∨ ChargedIn before auction

/-- The auction is in no list of pending auctions. -/
def Settled (b : Books) (id : Nat) : Prop := ∀ pending ∈ b.pendingAuctionMap, id ∉ pending.auctions

/-- A sale of the auction pays no deposit that was given up. -/
def MaySell (env : AuctionEnv) (s : AuctionState) (auction : AuctionEntry) : Prop :=
  s.books.Settled auction.id ∧
    (s.receives env auction.owner → auction.deposit = 0 ∨ auction.id ∉ s.unpaid)

end Books

namespace AuctionState

/-- No pending auction ends, no deposit that was given up is paid, and whoever is charged has the
deposits. -/
def Fits (env : AuctionEnv) (s : AuctionState) : AuctionEvent → Prop
  | .request (.placeBid player creature auctionId price) => ∀ auction,
      s.bidOn env player creature auctionId price = some auction →
      auction.buyout ≠ 0 → auction.buyout ≤ price → Books.MaySell env s auction
  | .request (.removeItem player creature auctionId) => ∀ auction item,
      s.cancelled env player creature auctionId = some (auction, item) →
      s.books.Settled auction.id
  | .request (.update house) => ∀ auction ∈ s.auctions, auction.auctionHouseEntry = house →
      auction.expireTime ≤ s.time + 60 →
      s.books.Settled auction.id ∧
        (¬(auction.bidder = 0 ∧ auction.bid = 0) → Books.MaySell env s auction)
  | .updatePendingAuctions => ∀ pending ∈ s.pendingAuctionMap, s.connected pending.player →
      pending.auctions.length = pending.count →
      s.totalDeposit env pending ≤ s.money pending.player
  | _ => True

end AuctionState

/-! ### The books -/

/-- An entry that charges no deposit. -/
def LedgerEntry.Plain : LedgerEntry → Prop
  | .charge _ _ _ => False
  | _ => True

/-- A sale of the entry pays what the ledger has charged. -/
def LedgerEntry.Covered (ledger : List LedgerEntry) : LedgerEntry → Prop
  | .sale auction => auction.deposit = 0 ∨ ChargedIn ledger auction
  | _ => True

variable {auction : AuctionEntry} {player id price auctionId : Nat} {e : LedgerEntry}
  {creature : Option AuctionHouses} {house : AuctionHouses}

theorem ChargedIn.mono {ledger ledger' : List LedgerEntry} (h : ChargedIn ledger auction)
    (hsub : ledger ⊆ ledger') : ChargedIn ledger' auction := by
  obtain ⟨deposits, taken, hmem, hdeposit⟩ := h
  exact ⟨deposits, taken, hsub hmem, hdeposit⟩

namespace Books

/-- The state of all deposits: an auction is pending with its owner, was charged or was given up,
and only one of them. -/
structure Accounted (b : Books) : Prop extends Sound b where
  purses : ∀ player, b.money player ≤ MAX_MONEY_AMOUNT
  ids : (b.auctions.map AuctionEntry.id).Nodup
  fresh : ∀ auction ∈ b.auctions, auction.id < b.nextAuctionId
  bids : ∀ auction ∈ b.auctions, auction.buyout = 0 ∨ auction.bid < auction.buyout
  players : (b.pendingAuctionMap.map PendingAuctions.player).Nodup
  nonempty : ∀ pending ∈ b.pendingAuctionMap, pending.auctions ≠ []
  distinct : ∀ pending ∈ b.pendingAuctionMap, pending.auctions.Nodup
  owned : ∀ pending ∈ b.pendingAuctionMap, ∀ auction ∈ b.auctions,
    auction.id ∈ pending.auctions → auction.owner = pending.player
  standing : ∀ auction ∈ b.auctions, b.Settled auction.id → auction.id ∉ b.unpaid →
    ChargedIn b.ledger auction
  given : ∀ id ∈ b.unpaid, id < b.nextAuctionId ∧ b.Settled id
  closed : ∀ player deposits taken, .charge player deposits taken ∈ b.ledger →
    ∀ deposit ∈ deposits, deposit.1 < b.nextAuctionId ∧ b.Settled deposit.1 ∧ deposit.1 ∉ b.unpaid

variable {b b' : Books} {entries : List LedgerEntry}

/-- Entries whose sales are covered leave all sales covered. -/
theorem covered_append {ledger : List LedgerEntry}
    (h : ∀ before auction after, ledger = before ++ .sale auction :: after →
      auction.deposit = 0 ∨ ChargedIn before auction)
    (hentries : ∀ e ∈ entries, e.Covered ledger) (before : List LedgerEntry)
    (auction : AuctionEntry) (after : List LedgerEntry)
    (heq : ledger ++ entries = before ++ .sale auction :: after) :
    auction.deposit = 0 ∨ ChargedIn before auction := by
  rcases append_eq_append_iff.mp heq with ⟨middle, rfl, hrest⟩ | ⟨middle, hledger, hrest⟩
  · have hmem : .sale auction ∈ entries := by
      rw [hrest]
      exact mem_append_right _ mem_cons_self
    exact (hentries _ hmem).imp_right fun hcharged =>
      hcharged.mono (subset_append_left _ _)
  · cases middle with
    | nil =>
      have hmem : .sale auction ∈ entries := by
        rw [← nil_append entries, ← hrest]
        exact mem_cons_self
      rw [append_nil] at hledger
      rw [← hledger]
      exact hentries _ hmem
    | cons e middle =>
      obtain ⟨rfl, -⟩ := cons.inj hrest
      exact h before auction middle hledger

/-- A charge in a ledger that grew by other entries was there before. -/
theorem mem_of_plain {ledger : List LedgerEntry} (h : ∀ e ∈ entries, e.Plain)
    {deposits : List (Nat × Nat)} {taken : Int}
    (hmem : .charge player deposits taken ∈ ledger ++ entries) :
    .charge player deposits taken ∈ ledger :=
  (mem_append.mp hmem).resolve_right fun hentry => h _ hentry

/-- Auctions that change in nothing the deposits depend on, or end when they are not pending,
leave the deposits accounted for. -/
theorem Accounted.revise (h : b.Accounted) (hnext : b.nextAuctionId ≤ b'.nextAuctionId)
    (hpending : b'.pendingAuctionMap = b.pendingAuctionMap) (hunpaid : b'.unpaid = b.unpaid)
    (hledger : b'.ledger = b.ledger ++ entries) (hplain : ∀ e ∈ entries, e.Plain)
    (hcovered : ∀ e ∈ entries, e.Covered b.ledger)
    (hmoney : ∀ player, b'.money player ≤ MAX_MONEY_AMOUNT)
    (hids : (b'.auctions.map AuctionEntry.id).Nodup)
    (hbids : ∀ auction ∈ b'.auctions, auction.buyout = 0 ∨ auction.bid < auction.buyout)
    (hfrom : ∀ auction' ∈ b'.auctions, ∃ auction ∈ b.auctions, auction.id = auction'.id ∧
      auction.owner = auction'.owner ∧ auction.deposit = auction'.deposit)
    (hkept : ∀ auction ∈ b.auctions, ¬b.Settled auction.id →
      ∃ auction' ∈ b'.auctions, auction'.id = auction.id) : b'.Accounted where
  live pending hmem id hid := by
    rw [hpending] at hmem
    obtain ⟨auction, hauction, rfl⟩ := h.live pending hmem id hid
    exact hkept auction hauction fun hsettled => hsettled pending hmem hid
  charged player deposits taken hmem := by
    rw [hledger] at hmem
    exact h.charged player deposits taken (mem_of_plain hplain hmem)
  covered := by
    rw [hledger]
    exact covered_append h.covered hcovered
  purses := hmoney
  ids := hids
  fresh auction' hmem := by
    obtain ⟨auction, hauction, hid, -⟩ := hfrom auction' hmem
    rw [← hid]
    exact (h.fresh auction hauction).trans_le hnext
  bids := hbids
  players := by
    rw [hpending]
    exact h.players
  nonempty := by
    rw [hpending]
    exact h.nonempty
  distinct := by
    rw [hpending]
    exact h.distinct
  owned pending hmem auction' hauction' hid := by
    rw [hpending] at hmem
    obtain ⟨auction, hauction, hsame, howner, -⟩ := hfrom auction' hauction'
    rw [← howner]
    exact h.owned pending hmem auction hauction (by rwa [hsame])
  standing auction' hauction' hsettled hnot := by
    obtain ⟨auction, hauction, hid, howner, hdeposit⟩ := hfrom auction' hauction'
    unfold Settled at hsettled
    rw [hpending, ← hid] at hsettled
    rw [hunpaid, ← hid] at hnot
    have hcharged := h.standing auction hauction hsettled hnot
    unfold ChargedIn at hcharged ⊢
    rw [hledger, ← hid, ← howner, ← hdeposit]
    obtain ⟨deposits, taken, hmem, hpaid⟩ := hcharged
    exact ⟨deposits, taken, mem_append_left _ hmem, hpaid⟩
  given id hmem := by
    unfold Settled
    rw [hunpaid] at hmem
    rw [hpending]
    exact ⟨(h.given id hmem).1.trans_le hnext, (h.given id hmem).2⟩
  closed player deposits taken hmem deposit hdeposit := by
    unfold Settled
    rw [hledger] at hmem
    rw [hpending, hunpaid]
    obtain ⟨hlt, hrest⟩ := h.closed _ _ _ (mem_of_plain hplain hmem) deposit hdeposit
    exact ⟨hlt.trans_le hnext, hrest⟩

/-- Auctions that are not pending may end. -/
theorem Accounted.close (h : b.Accounted) (hplain : ∀ e ∈ entries, e.Plain)
    (hcovered : ∀ e ∈ entries, e.Covered b.ledger) {money : Nat → Nat}
    (hmoney : ∀ player, money player ≤ b.money player) {p : AuctionEntry → Bool}
    (hsettled : ∀ auction ∈ b.auctions, p auction = false → b.Settled auction.id) :
    Accounted { b with
      money
      ledger := b.ledger ++ entries
      auctions := b.auctions.filter p } := by
  refine h.revise le_rfl rfl rfl rfl hplain hcovered ?_ ?_ ?_ ?_ ?_
  · exact fun player => (hmoney player).trans (h.purses player)
  · exact h.ids.sublist (filter_sublist.map _)
  · exact fun auction hauction => h.bids auction (mem_of_mem_filter hauction)
  · exact fun auction hauction => ⟨auction, mem_of_mem_filter hauction, rfl, rfl, rfl⟩
  · intro auction hauction hnot
    refine ⟨auction, mem_filter.mpr ⟨hauction, ?_⟩, rfl⟩
    by_contra hp
    exact hnot (hsettled auction hauction (by simpa using hp))

/-- What is in a list of pending auctions is live, so it was numbered before. -/
theorem Accounted.lt_next (h : b.Accounted) {pending : PendingAuctions}
    (hmem : pending ∈ b.pendingAuctionMap) (hid : id ∈ pending.auctions) :
    id < b.nextAuctionId := by
  obtain ⟨auction, hauction, rfl⟩ := h.live pending hmem id hid
  exact h.fresh auction hauction

/-- The auction that is added is the only one that is pending since. -/
theorem settled_of_addsPending {map map' : List PendingAuctions} {next : Nat}
    (h : AuctionState.AddsPending map player next map') (hne : id ≠ next) :
    (∀ pending ∈ map', id ∉ pending.auctions) ↔ ∀ pending ∈ map, id ∉ pending.auctions := by
  constructor
  · intro hnot pending hmem hid
    obtain ⟨pending', hmem', hsub⟩ := h.kept pending hmem
    exact hnot pending' hmem' (hsub hid)
  · intro hnot pending' hmem' hid
    rcases h.from' pending' hmem' with hmem | ⟨-, heq | ⟨pending, hmem, -, heq⟩⟩
    · exact hnot pending' hmem hid
    · rw [heq] at hid
      exact hne (mem_singleton.mp hid)
    · rw [heq] at hid
      rcases mem_append.mp hid with hold | hnew
      · exact hnot pending hmem hold
      · exact hne (mem_singleton.mp hnew)

/-- A new auction is pending with its owner. -/
theorem Accounted.list (h : b.Accounted) {map' : List PendingAuctions}
    (hid : auction.id = b.nextAuctionId) (howner : auction.owner = player) (hbid : auction.bid = 0)
    (hadds : AuctionState.AddsPending b.pendingAuctionMap player b.nextAuctionId map') :
    Accounted { b with
      nextAuctionId := b.nextAuctionId + 1
      auctions := b.auctions ++ [auction]
      pendingAuctionMap := map' } where
  live pending' hmem' id hmem := by
    rcases hadds.from' pending' hmem' with hold | ⟨-, heq | ⟨pending, hpending, -, heq⟩⟩
    · obtain ⟨other, hother, rfl⟩ := h.live pending' hold id hmem
      exact ⟨other, mem_append_left _ hother, rfl⟩
    · rw [heq, mem_singleton] at hmem
      exact ⟨auction, mem_append_right _ mem_cons_self, by rw [hid, hmem]⟩
    · rw [heq] at hmem
      rcases mem_append.mp hmem with hold | hnew
      · obtain ⟨other, hother, rfl⟩ := h.live pending hpending id hold
        exact ⟨other, mem_append_left _ hother, rfl⟩
      · rw [mem_singleton] at hnew
        exact ⟨auction, mem_append_right _ mem_cons_self, by rw [hid, hnew]⟩
  charged := h.charged
  covered := h.covered
  purses := h.purses
  ids := by
    rw [map_append, nodup_append]
    refine ⟨h.ids, nodup_singleton _, ?_⟩
    intro id hmem id' hid' heq
    obtain ⟨other, hother, rfl⟩ := mem_map.mp hmem
    rw [map_singleton, mem_singleton] at hid'
    have := h.fresh other hother
    omega
  fresh other hother := by
    rcases mem_append.mp hother with hold | hnew
    · exact Nat.lt_succ_of_lt (h.fresh other hold)
    · rw [mem_singleton.mp hnew, hid]
      exact Nat.lt_succ_self _
  bids other hother := by
    rcases mem_append.mp hother with hold | hnew
    · exact h.bids other hold
    · rw [mem_singleton.mp hnew, hbid]
      exact Nat.eq_zero_or_pos _
  players := hadds.players h.players
  nonempty pending' hmem' := by
    rcases hadds.from' pending' hmem' with hold | ⟨-, heq | ⟨pending, hpending, -, heq⟩⟩
    · exact h.nonempty pending' hold
    · rw [heq]
      exact cons_ne_nil _ _
    · rw [heq]
      exact append_ne_nil_of_right_ne_nil _ (cons_ne_nil _ _)
  distinct pending' hmem' := by
    rcases hadds.from' pending' hmem' with hold | ⟨-, heq | ⟨pending, hpending, -, heq⟩⟩
    · exact h.distinct pending' hold
    · rw [heq]
      exact nodup_singleton _
    · rw [heq, nodup_append]
      refine ⟨h.distinct pending hpending, nodup_singleton _, ?_⟩
      intro id hold id' hnew heq
      have hlt := h.lt_next hpending hold
      rw [mem_singleton] at hnew
      omega
  owned pending' hmem' other hother hmem := by
    have hnew : other.id = b.nextAuctionId → other ∈ b.auctions ++ [auction] →
        other.owner = player := by
      intro heq hother
      rcases mem_append.mp hother with hold | hnew
      · exact absurd (h.fresh other hold) (by omega)
      · rw [mem_singleton.mp hnew, howner]
    have hold : other.id < b.nextAuctionId → other ∈ b.auctions := by
      intro hlt
      rcases mem_append.mp hother with hold | hnew
      · exact hold
      · rw [mem_singleton.mp hnew] at hlt
        omega
    rcases hadds.from' pending' hmem' with hpending | ⟨hplayer, heq | ⟨pending, hpending, hsame, heq⟩⟩
    · exact h.owned pending' hpending other (hold (h.lt_next hpending hmem)) hmem
    · rw [heq, mem_singleton] at hmem
      rw [hplayer, hnew hmem hother]
    · rw [heq] at hmem
      rw [hplayer]
      rcases mem_append.mp hmem with hid' | hid'
      · rw [← hsame]
        exact h.owned pending hpending other (hold (h.lt_next hpending hid')) hid'
      · exact hnew (mem_singleton.mp hid') hother
  standing other hother hsettled hnot := by
    rcases mem_append.mp hother with hold | hnew
    · have hne := (h.fresh other hold).ne
      exact h.standing other hold ((settled_of_addsPending hadds hne).mp hsettled) hnot
    · obtain ⟨pending', hmem', hlisted⟩ := hadds.listed
      rw [mem_singleton.mp hnew, hid] at hsettled
      exact absurd hlisted (hsettled pending' hmem')
  given id hmem := by
    obtain ⟨hlt, hsettled⟩ := h.given id hmem
    exact ⟨Nat.lt_succ_of_lt hlt, (settled_of_addsPending hadds hlt.ne).mpr hsettled⟩
  closed other deposits taken hmem deposit hdeposit := by
    obtain ⟨hlt, hsettled, hnot⟩ := h.closed other deposits taken hmem deposit hdeposit
    exact ⟨Nat.lt_succ_of_lt hlt, (settled_of_addsPending hadds hlt.ne).mpr hsettled, hnot⟩

/-- Other money and an id that no auction got are of no account. -/
theorem Accounted.unchanged (h : b.Accounted) (hnext : b.nextAuctionId ≤ b'.nextAuctionId)
    (hauctions : b'.auctions = b.auctions) (hpending : b'.pendingAuctionMap = b.pendingAuctionMap)
    (hledger : b'.ledger = b.ledger) (hunpaid : b'.unpaid = b.unpaid)
    (hmoney : ∀ player, b'.money player ≤ MAX_MONEY_AMOUNT) : b'.Accounted := by
  rw [← append_nil b.ledger] at hledger
  refine h.revise hnext hpending hunpaid hledger (forall_mem_nil _) (forall_mem_nil _)
    hmoney ?_ ?_ ?_ ?_
  · rw [hauctions]
    exact h.ids
  · rw [hauctions]
    exact h.bids
  · rw [hauctions]
    exact fun auction hauction => ⟨auction, hauction, rfl, rfl, rfl⟩
  · rw [hauctions]
    exact fun auction hauction _ => ⟨auction, hauction, rfl⟩

/-- A sale that pays a deposit given up is not covered by anything. -/
theorem Accounted.not_sound_of_sale (h : b.Accounted) (hledger : b'.ledger = b.ledger ++ entries)
    (hplain : ∀ e ∈ entries, e.Plain) (hmem : .sale auction ∈ entries) (hid : auction.id ∈ b.unpaid)
    (hdeposit : auction.deposit ≠ 0) : ¬b'.Sound := by
  intro hsound
  obtain ⟨before, after, rfl⟩ := append_of_mem hmem
  rcases hsound.covered (b.ledger ++ before) auction after (by rw [hledger, append_assoc])
    with hzero | ⟨deposits, taken, hcharge, hpaid⟩
  · exact hdeposit hzero
  · have hplain' : ∀ e ∈ before, e.Plain := fun e he => hplain e (mem_append_left _ he)
    exact (h.closed _ _ _ (mem_of_plain hplain' hcharge) _ hpaid).2.2 hid

/-- A pending auction that is gone is not live. -/
theorem not_sound_of_gone (hpending : b'.pendingAuctionMap = b.pendingAuctionMap)
    (hnot : ¬b.Settled id) (hgone : ∀ auction ∈ b'.auctions, auction.id ≠ id) : ¬b'.Sound := by
  intro hsound
  apply hnot
  intro pending hmem hid
  rw [← hpending] at hmem
  obtain ⟨auction, hauction, rfl⟩ := hsound.live pending hmem id hid
  exact hgone auction hauction rfl

end Books

namespace AuctionState

open Books

variable {s : AuctionState}

/-! ### Requests -/

theorem mem_saleOf :
    e ∈ s.saleOf env auction ↔ s.receives env auction.owner ∧ e = .sale auction := by
  unfold saleOf
  split
  · next h => simp [h]
  · next h => simp [h]

theorem plain_saleOf (h : e ∈ s.saleOf env auction) : e.Plain := by
  rw [(mem_saleOf.mp h).2]
  trivial

/-- What a sale pays was charged, when the auction may be sold. -/
theorem covered_of_maySell (h : s.books.Accounted) {auction' : AuctionEntry}
    (hmem : auction ∈ s.auctions) (hid : auction'.id = auction.id)
    (howner : auction'.owner = auction.owner) (hdeposit : auction'.deposit = auction.deposit)
    (hsell : MaySell env s auction) (he : e ∈ s.saleOf env auction') : e.Covered s.ledger := by
  obtain ⟨hreceives, rfl⟩ := mem_saleOf.mp he
  rw [howner] at hreceives
  have hcharged : auction.deposit = 0 ∨ ChargedIn s.ledger auction :=
    (hsell.2 hreceives).imp_right (h.standing auction hmem hsell.1)
  change auction'.deposit = 0 ∨ ChargedIn s.ledger auction'
  unfold ChargedIn
  rw [hid, howner, hdeposit]
  exact hcharged

/-- Where no sale that is asked for may be made, either a pending auction ends or a deposit that
was given up is paid. -/
theorem not_maySell (h : ¬MaySell env s auction) :
    ¬s.books.Settled auction.id ∨
      s.receives env auction.owner = true ∧ auction.deposit ≠ 0 ∧ auction.id ∈ s.unpaid := by
  unfold MaySell at h
  tauto

section

variable (h : s.books.Accounted)
include h

theorem accounted_sellItem (player : Nat)
    (creature : Option AuctionHouses) (requests : List (Nat × Nat)) (bid buyout etime : Nat) :
    (s.handleAuctionSellItem env player creature requests bid buyout etime).books.Accounted := by
  generalize hbooks : (s.handleAuctionSellItem env player creature requests bid buyout etime).books
    = b
  have hlists := books_sellItem env s player creature requests bid buyout etime
  rw [hbooks] at hlists
  cases hlists with
  | refused => exact h
  | skipped => exact h.unchanged (Nat.le_succ _) rfl rfl rfl rfl h.purses
  | listed auction map' hid howner hbid _ hadds => exact h.list hid howner hbid hadds

/-- A bid leaves every auction with its owner and its deposit. -/
theorem accounted_bid (hmem : auction ∈ s.auctions)
    (hlow : price < auction.buyout ∨ auction.buyout = 0) {money : Nat → Nat}
    (hmoney : ∀ other, money other ≤ s.money other) (taken : Int) :
    Accounted { s.books with
      money
      ledger := s.ledger ++ [.bid player auction.id taken]
      auctions := s.auctions.map fun other =>
        if other.id = auction.id then { other with bidder := player, bid := price } else other } := by
  refine h.revise le_rfl rfl rfl rfl ?_ ?_ ?_ ?_ ?_ ?_ ?_
  · intro e he
    rw [mem_singleton.mp he]
    trivial
  · intro e he
    rw [mem_singleton.mp he]
    trivial
  · exact fun other => (hmoney other).trans (h.purses other)
  · have hids : ((s.auctions.map fun other => if other.id = auction.id then
        { other with bidder := player, bid := price } else other).map AuctionEntry.id) =
        s.auctions.map AuctionEntry.id := by
      rw [map_map]
      apply map_congr_left
      intro other _
      simp only [Function.comp]
      split <;> rfl
    rw [hids]
    exact h.ids
  · intro auction' hmem'
    obtain ⟨other, hother, rfl⟩ := mem_map.mp hmem'
    split
    · next hid =>
      obtain rfl := inj_on_of_nodup_map h.ids hother hmem hid
      exact hlow.symm
    · exact h.bids other hother
  · intro auction' hmem'
    obtain ⟨other, hother, rfl⟩ := mem_map.mp hmem'
    refine ⟨other, hother, ?_⟩
    split <;> exact ⟨rfl, rfl, rfl⟩
  · intro other hother _
    refine ⟨_, mem_map_of_mem hother, ?_⟩
    split <;> rfl

theorem accounted_placeBid
    (hfits : s.Fits env (.request (.placeBid player creature auctionId price))) :
    (s.handleAuctionPlaceBid env player creature auctionId price).books.Accounted := by
  unfold handleAuctionPlaceBid
  split
  · exact h
  · next auction hbid =>
    obtain ⟨hmem, -, hprice, hmoney⟩ := bidOn_spec hbid
    have hpurse : s.money player ≤ MAX_MONEY_AMOUNT := h.purses player
    split
    · next hlow =>
      obtain ⟨money, taken, hle, hbooks⟩ := books_placeBid (hmoney.trans hpurse)
      rw [hbooks]
      exact accounted_bid h hmem hlow hle taken
    · next hhigh =>
      have hbuyout : auction.buyout ≠ 0 := by omega
      have hless : auction.bid < auction.buyout := (h.bids auction hmem).resolve_left hbuyout
      have hcap : auction.buyout ≤ MAX_MONEY_AMOUNT := by omega
      obtain ⟨money, taken, hle, hbooks⟩ := books_buyOut env s player hcap hless
      have hsell := hfits auction hbid hbuyout (by omega)
      rw [hbooks]
      refine h.close ?_ ?_ hle ?_
      · intro e he
        rcases mem_cons.mp he with rfl | he
        · trivial
        · exact plain_saleOf he
      · intro e he
        rcases mem_cons.mp he with rfl | he
        · trivial
        · refine covered_of_maySell h hmem ?_ ?_ ?_ hsell he <;> rfl
      · intro other hother hid
        have heq : other.id = auction.id := by simpa using hid
        rw [heq]
        exact hsell.1

/-- A buyout that does not fit ends a pending auction or pays what was given up. -/
theorem not_sound_placeBid
    (hfits : ¬s.Fits env (.request (.placeBid player creature auctionId price))) :
    ¬(s.handleAuctionPlaceBid env player creature auctionId price).books.Sound := by
  unfold Fits at hfits
  push Not at hfits
  obtain ⟨auction, hbid, hbuyout, hhigh, hsell⟩ := hfits
  obtain ⟨hmem, -, hprice, hmoney⟩ := bidOn_spec hbid
  have hpurse : s.money player ≤ MAX_MONEY_AMOUNT := h.purses player
  have hless : auction.bid < auction.buyout := (h.bids auction hmem).resolve_left hbuyout
  have hcap : auction.buyout ≤ MAX_MONEY_AMOUNT := by omega
  obtain ⟨money, taken, hle, hbooks⟩ := books_buyOut env s player hcap hless
  unfold handleAuctionPlaceBid
  rw [hbid]
  dsimp only
  rw [if_neg (by omega), hbooks]
  rcases not_maySell hsell with hpending | ⟨hreceives, hdeposit, hunpaid⟩
  · refine not_sound_of_gone (b := s.books) ?_ hpending ?_
    · rfl
    · intro other hother
      exact of_decide_eq_true (mem_filter.mp hother).2
  · have hsale : .sale (soldTo player auction) ∈
        .bid player auction.id taken :: s.saleOf env (soldTo player auction) :=
      mem_cons_of_mem _ (mem_saleOf.mpr ⟨hreceives, rfl⟩)
    refine h.not_sound_of_sale ?_ ?_ hsale hunpaid hdeposit
    · rfl
    · intro e he
      rcases mem_cons.mp he with rfl | he
      · trivial
      · exact plain_saleOf he

theorem accounted_removeItem
    (hfits : s.Fits env (.request (.removeItem player creature auctionId))) :
    (s.handleAuctionRemoveItem env player creature auctionId).books.Accounted := by
  cases hcancel : s.cancelled env player creature auctionId with
  | none =>
    unfold handleAuctionRemoveItem
    rw [hcancel]
    exact h
  | some cancelled =>
    obtain ⟨auction, item⟩ := cancelled
    obtain ⟨money, entries, hle, hsub, hbooks⟩ := books_cancel (h.purses player) hcancel
    rw [hbooks]
    refine h.close ?_ ?_ hle ?_
    · intro e he
      rw [mem_singleton.mp (hsub he)]
      trivial
    · intro e he
      rw [mem_singleton.mp (hsub he)]
      trivial
    · intro other hother hid
      have heq : other.id = auction.id := by simpa using hid
      rw [heq]
      exact hfits auction item hcancel

theorem not_sound_removeItem
    (hfits : ¬s.Fits env (.request (.removeItem player creature auctionId))) :
    ¬(s.handleAuctionRemoveItem env player creature auctionId).books.Sound := by
  unfold Fits at hfits
  push Not at hfits
  obtain ⟨auction, item, hcancel, hpending⟩ := hfits
  obtain ⟨money, entries, -, -, hbooks⟩ := books_cancel (h.purses player) hcancel
  rw [hbooks]
  refine not_sound_of_gone (b := s.books) ?_ hpending ?_
  · rfl
  · intro other hother
    exact of_decide_eq_true (mem_filter.mp hother).2

end

/-- The auctions that an update of the house ends. -/
theorem mem_ending :
    auction ∈ (s.auctions.filter (·.auctionHouseEntry = house)).filter s.ends ↔
      auction ∈ s.auctions ∧ auction.auctionHouseEntry = house ∧
        auction.expireTime ≤ s.time + 60 := by
  simp only [mem_filter, decide_eq_true_eq, ends, and_assoc]

theorem mem_expiryOf :
    e ∈ s.expiryOf env auction ↔
      ¬(auction.bidder = 0 ∧ auction.bid = 0) ∧ e ∈ s.saleOf env auction := by
  unfold expiryOf
  split
  · next h => simp [h]
  · next h => simp only [h, not_false_eq_true, true_and]

theorem accounted_update (h : s.books.Accounted) (hfits : s.Fits env (.request (.update house))) :
    (s.update env house).books.Accounted := by
  unfold update
  rw [books_foldl_expire]
  refine h.close ?_ ?_ (fun _ => le_rfl) ?_
  · intro e he
    obtain ⟨auction, -, hexpiry⟩ := mem_flatMap.mp he
    exact plain_saleOf (mem_expiryOf.mp hexpiry).2
  · intro e he
    obtain ⟨auction, hending, hexpiry⟩ := mem_flatMap.mp he
    obtain ⟨hmem, hhouse, hends⟩ := mem_ending.mp hending
    obtain ⟨hbidder, hsale⟩ := mem_expiryOf.mp hexpiry
    have hsell := (hfits auction hmem hhouse hends).2 hbidder
    exact covered_of_maySell h hmem rfl rfl rfl hsell hsale
  · intro other hother hid
    simp only [decide_eq_false_iff_not, not_not] at hid
    obtain ⟨auction, hending, heq⟩ := mem_map.mp hid
    obtain ⟨hmem, hhouse, hends⟩ := mem_ending.mp hending
    rw [← heq]
    exact (hfits auction hmem hhouse hends).1

theorem not_sound_update (h : s.books.Accounted) (hfits : ¬s.Fits env (.request (.update house))) :
    ¬(s.update env house).books.Sound := by
  unfold Fits at hfits
  push Not at hfits
  obtain ⟨auction, hmem, hhouse, hends, hbad⟩ := hfits
  have hending := mem_ending.mpr ⟨hmem, hhouse, hends⟩
  unfold update
  rw [books_foldl_expire]
  have hgone : ¬s.books.Settled auction.id ∨
      ¬(auction.bidder = 0 ∧ auction.bid = 0) ∧ s.receives env auction.owner = true ∧
        auction.deposit ≠ 0 ∧ auction.id ∈ s.unpaid := by
    by_cases hsettled : s.books.Settled auction.id
    · obtain ⟨hbidder, hsell⟩ := hbad hsettled
      exact (not_maySell hsell).imp_right fun hrest => ⟨fun hnone => hbidder hnone.1 hnone.2, hrest⟩
    · exact .inl hsettled
  rcases hgone with hpending | ⟨hbidder, hreceives, hdeposit, hunpaid⟩
  · refine not_sound_of_gone (b := s.books) ?_ hpending ?_
    · rfl
    · intro other hother heq
      have hnot := of_decide_eq_true (mem_filter.mp hother).2
      exact hnot (mem_map.mpr ⟨auction, hending, heq.symm⟩)
  · have hsale : .sale auction ∈ ((s.auctions.filter (·.auctionHouseEntry = house)).filter
        s.ends).flatMap (s.expiryOf env) :=
      mem_flatMap.mpr ⟨auction, hending,
        mem_expiryOf.mpr ⟨hbidder, mem_saleOf.mpr ⟨hreceives, rfl⟩⟩⟩
    refine h.not_sound_of_sale ?_ ?_ hsale hunpaid hdeposit
    · rfl
    · intro e he
      obtain ⟨other, -, hexpiry⟩ := mem_flatMap.mp he
      exact plain_saleOf (mem_expiryOf.mp hexpiry).2

end AuctionState

end TrinityCore.AuctionHouse
