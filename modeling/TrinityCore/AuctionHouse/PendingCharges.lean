import TrinityCore.AuctionHouse.PendingDeposits
import TrinityCore.Lib.KeyedList

/-!
# The charges of pending auctions

What an update does with the pending auctions of one player and of all, and when the deposits of
whole runs are sound.
-/

namespace TrinityCore.AuctionHouse

open Function List

open Entities StateMachine

variable {env : AuctionEnv}

/-- Only the deposit and the time of an auction may change. -/
structure KeepsTerms (g : AuctionEntry → AuctionEntry) : Prop where
  id : ∀ auction, (g auction).id = auction.id
  owner : ∀ auction, (g auction).owner = auction.owner
  bid : ∀ auction, (g auction).bid = auction.bid
  buyout : ∀ auction, (g auction).buyout = auction.buyout
  itemGUIDLow : ∀ auction, (g auction).itemGUIDLow = auction.itemGUIDLow
  itemCount : ∀ auction, (g auction).itemCount = auction.itemCount
  etime : ∀ auction, (g auction).etime = auction.etime
  auctionHouseEntry : ∀ auction, (g auction).auctionHouseEntry = auction.auctionHouseEntry

theorem KeepsTerms.comp {f g : AuctionEntry → AuctionEntry} (hf : KeepsTerms f)
    (hg : KeepsTerms g) : KeepsTerms (f ∘ g) where
  id auction := (hf.id _).trans (hg.id auction)
  owner auction := (hf.owner _).trans (hg.owner auction)
  bid auction := (hf.bid _).trans (hg.bid auction)
  buyout auction := (hf.buyout _).trans (hg.buyout auction)
  itemGUIDLow auction := (hf.itemGUIDLow _).trans (hg.itemGUIDLow auction)
  itemCount auction := (hf.itemCount _).trans (hg.itemCount auction)
  etime auction := (hf.etime _).trans (hg.etime auction)
  auctionHouseEntry auction := (hf.auctionHouseEntry _).trans (hg.auctionHouseEntry auction)

theorem keepsTerms_id : KeepsTerms id := by
  constructor <;> exact fun _ => rfl

theorem keepsTerms_deposit (id deposit : Nat) : KeepsTerms fun auction =>
    if auction.id = id then { auction with deposit } else auction := by
  constructor <;> (intro auction; split <;> rfl)

theorem keepsTerms_expireTime (id time : Nat) : KeepsTerms fun auction =>
    if auction.id = id then { auction with expireTime := time } else auction := by
  constructor <;> (intro auction; split <;> rfl)

variable {g : AuctionEntry → AuctionEntry}

namespace AuctionState

variable {s : AuctionState}

/-- The same with every auction changed. -/
def adjust (s : AuctionState) (g : AuctionEntry → AuctionEntry) : AuctionState :=
  { s with auctions := s.auctions.map g }

theorem adjust_adjust (f g : AuctionEntry → AuctionEntry) :
    (s.adjust f).adjust g = s.adjust (g ∘ f) := by
  unfold adjust
  rw [map_map]

theorem adjust_id : s.adjust id = s := by
  unfold adjust
  rw [map_id]

theorem deref_adjust (hg : KeepsTerms g) (id : Nat) :
    (s.adjust g).deref env id =
      ((s.auctions.find? fun auction => auction.id = id).map g).getD (env.stale id) := by
  unfold deref adjust
  rw [find?_map]
  congr 3
  funext auction
  simp only [comp, hg.id]

/-- The total deposit does not depend on what may change. -/
theorem totalDeposit_adjust (hg : KeepsTerms g) (pending : PendingAuctions) :
    (s.adjust g).totalDeposit env pending = s.totalDeposit env pending := by
  have hderef : ∀ {α : Type} (f : AuctionEntry → α), (∀ auction, f (g auction) = f auction) →
      ∀ id, f ((s.adjust g).deref env id) = f (s.deref env id) := by
    intro α f hf id
    rw [deref_adjust hg]
    unfold deref
    cases s.auctions.find? fun auction => auction.id = id with
    | none => rfl
    | some auction => exact hf auction
  unfold totalDeposit
  split
  · rfl
  · simp only [hderef _ hg.itemCount, hderef _ hg.itemGUIDLow, hderef _ hg.etime,
      hderef _ hg.auctionHouseEntry]
    rfl

/-! ### Shares -/

/-- What an auction becomes when a deposit is shared. -/
def shared (share : Nat) : Nat → List Nat → AuctionEntry → AuctionEntry
  | _, [] => id
  | remain, [id] => fun auction =>
    if auction.id = id then { auction with deposit := remain } else auction
  | remain, id :: id' :: rest => shared share (remain - share) (id' :: rest) ∘ fun auction =>
    if auction.id = id then { auction with deposit := share } else auction

theorem shareDeposit_eq (share remain : Nat) (ids : List Nat) (s : AuctionState) :
    shareDeposit share remain ids s = s.adjust (shared share remain ids) := by
  fun_induction shareDeposit share remain ids s with
  | case1 => exact adjust_id.symm
  | case2 => rfl
  | case3 remain id id' rest s ih =>
    rw [ih]
    exact adjust_adjust _ _

theorem keepsTerms_shared (share remain : Nat) (ids : List Nat) :
    KeepsTerms (shared share remain ids) := by
  fun_induction shared share remain ids with
  | case1 => exact keepsTerms_id
  | case2 => exact keepsTerms_deposit _ _
  | case3 remain id id' rest ih => exact ih.comp (keepsTerms_deposit _ _)

/-- An auction that is not in the list keeps its deposit. -/
theorem shared_of_not_mem (share remain : Nat) {ids : List Nat} {auction : AuctionEntry}
    (h : auction.id ∉ ids) : shared share remain ids auction = auction := by
  fun_induction shared share remain ids generalizing auction with
  | case1 => rfl
  | case2 => exact if_neg fun heq => h (mem_singleton.mpr heq)
  | case3 remain id id' rest ih =>
    rw [mem_cons, not_or] at h
    simp only [comp, if_neg h.1]
    exact ih h.2

/-- The shares are all of the deposit. -/
theorem sum_shared (share remain : Nat) {ids : List Nat} (hnodup : ids.Nodup) (hne : ids ≠ [])
    (hshare : share * (ids.length - 1) ≤ remain) {f : Nat → AuctionEntry}
    (hf : ∀ id ∈ ids, (f id).id = id) :
    (ids.map fun id => (shared share remain ids (f id)).deposit).sum = remain := by
  fun_induction shared share remain ids with
  | case1 => exact absurd rfl hne
  | case2 remain id => simp [hf id mem_cons_self]
  | case3 remain id id' rest ih =>
    obtain ⟨hnot, hrest⟩ := nodup_cons.mp hnodup
    have hid := hf id mem_cons_self
    have hlen : share + share * ((id' :: rest).length - 1) ≤ remain := by
      simpa [Nat.mul_add, Nat.add_comm] using hshare
    have hfirst : (shared share (remain - share) (id' :: rest)
        { f id with deposit := share }).deposit = share := by
      rw [shared_of_not_mem]
      rwa [hid]
    have hothers : ((id' :: rest).map fun other => (shared share (remain - share) (id' :: rest)
        (if (f other).id = id then { f other with deposit := share } else f other)).deposit) =
        (id' :: rest).map fun other =>
          (shared share (remain - share) (id' :: rest) (f other)).deposit := by
      apply map_congr_left
      intro other hother
      rw [if_neg]
      rw [hf other (mem_cons_of_mem _ hother)]
      rintro rfl
      exact hnot hother
    rw [map_cons, sum_cons]
    simp only [comp, if_pos hid, hfirst, hothers]
    rw [ih hrest (cons_ne_nil _ _) (by omega)
      fun other hother => hf other (mem_cons_of_mem _ hother)]
    omega

end AuctionState

/-! ### Lists that are taken off the books -/

namespace Books

variable {b : Books}

/-- Only one player has the auction in his list. -/
theorem Accounted.player_eq (h : b.Accounted) {pending pending' : PendingAuctions}
    (hmem : pending ∈ b.pendingAuctionMap) (hmem' : pending' ∈ b.pendingAuctionMap) {id : Nat}
    (hid : id ∈ pending.auctions) (hid' : id ∈ pending'.auctions) :
    pending'.player = pending.player := by
  obtain ⟨auction, hauction, rfl⟩ := h.live pending hmem id hid
  rw [← h.owned pending hmem auction hauction hid, ← h.owned pending' hmem' auction hauction hid']

/-- A list may be taken off the books when the ledger says of each auction that it was charged, or
it is known to be given up. -/
theorem Accounted.unlist (h : b.Accounted) {pending : PendingAuctions}
    (hmem : pending ∈ b.pendingAuctionMap) (hg : KeepsTerms g)
    (hother : ∀ auction, auction.id ∉ pending.auctions → (g auction).deposit = auction.deposit)
    {money : Nat → Nat} (hmoney : ∀ player, money player ≤ MAX_MONEY_AMOUNT)
    {ledger : List LedgerEntry} {unpaid : List Nat} (hledger : b.ledger ⊆ ledger)
    (hcharged : ∀ player deposits taken, .charge player deposits taken ∈ ledger →
      taken = (deposits.map Prod.snd).sum)
    (hcovered : ∀ before auction after, ledger = before ++ .sale auction :: after →
      auction.deposit = 0 ∨ ChargedIn before auction)
    (hstanding : ∀ auction ∈ b.auctions, auction.id ∈ pending.auctions →
      auction.id ∉ unpaid → ChargedIn ledger (g auction))
    (hunpaid : b.unpaid ⊆ unpaid)
    (hgiven : ∀ id ∈ unpaid, id ∈ b.unpaid ∨ id ∈ pending.auctions)
    (hclosed : ∀ player deposits taken, .charge player deposits taken ∈ ledger →
      ∀ deposit ∈ deposits, (deposit.1 < b.nextAuctionId ∧ b.Settled deposit.1 ∨
        deposit.1 ∈ pending.auctions) ∧ deposit.1 ∉ unpaid) :
    Accounted { b with
      auctions := b.auctions.map g
      pendingAuctionMap := b.pendingAuctionMap.filter fun other => other.player ≠ pending.player
      ledger, unpaid, money } := by
  have hsettled : ∀ id, b.Settled id ∨ id ∈ pending.auctions →
      ∀ other ∈ b.pendingAuctionMap.filter fun other => other.player ≠ pending.player,
        id ∉ other.auctions := by
    intro id hid other hfilter hlisted
    obtain ⟨hother, hplayer⟩ := mem_filter.mp hfilter
    rcases hid with hid | hid
    · exact hid other hother hlisted
    · exact of_decide_eq_true hplayer (h.player_eq hmem hother hid hlisted)
  have hlt : ∀ id ∈ pending.auctions, id < b.nextAuctionId := fun id hid => h.lt_next hmem hid
  refine ⟨⟨fun other hfilter id hid => ?_, hcharged, hcovered⟩, hmoney, ?_, ?_, ?_, ?_, ?_, ?_, ?_,
    ?_, ?_, ?_⟩
  · obtain ⟨auction, hauction, rfl⟩ := h.live other (mem_of_mem_filter hfilter) id hid
    exact ⟨g auction, mem_map_of_mem hauction, hg.id auction⟩
  · rw [map_map, show AuctionEntry.id ∘ g = AuctionEntry.id from funext hg.id]
    exact h.ids
  · intro auction' hauction'
    obtain ⟨auction, hauction, rfl⟩ := mem_map.mp hauction'
    rw [hg.id]
    exact h.fresh auction hauction
  · intro auction' hauction'
    obtain ⟨auction, hauction, rfl⟩ := mem_map.mp hauction'
    rw [hg.bid, hg.buyout]
    exact h.bids auction hauction
  · exact h.players.sublist (filter_sublist.map _)
  · exact fun other hfilter => h.nonempty other (mem_of_mem_filter hfilter)
  · exact fun other hfilter => h.distinct other (mem_of_mem_filter hfilter)
  · intro other hfilter auction' hauction' hid
    obtain ⟨auction, hauction, rfl⟩ := mem_map.mp hauction'
    rw [hg.id] at hid
    rw [hg.owner]
    exact h.owned other (mem_of_mem_filter hfilter) auction hauction hid
  · intro auction' hauction' hsettled' hnot
    obtain ⟨auction, hauction, rfl⟩ := mem_map.mp hauction'
    rw [hg.id] at hnot
    by_cases hid : auction.id ∈ pending.auctions
    · exact hstanding auction hauction hid hnot
    · have hold : b.Settled auction.id := by
        intro other hother' hlisted
        by_cases hplayer : other.player = pending.player
        · obtain rfl := inj_on_of_nodup_map h.players hother' hmem hplayer
          exact hid hlisted
        · refine hsettled' other (mem_filter.mpr ⟨hother', decide_eq_true hplayer⟩) ?_
          rwa [hg.id]
      obtain ⟨deposits, taken, hcharge, hpaid⟩ :=
        h.standing auction hauction hold fun hin => hnot (hunpaid hin)
      refine ⟨deposits, taken, ?_, ?_⟩
      · rw [hg.owner]
        exact hledger hcharge
      · rwa [hg.id, hother auction hid]
  · intro id hid
    rcases hgiven id hid with hold | hlisted
    · exact ⟨(h.given id hold).1, hsettled id (.inl (h.given id hold).2)⟩
    · exact ⟨hlt id hlisted, hsettled id (.inr hlisted)⟩
  · intro player deposits taken hcharge deposit hdeposit
    obtain ⟨hcase, hnot⟩ := hclosed player deposits taken hcharge deposit hdeposit
    rcases hcase with ⟨hnext, hold⟩ | hlisted
    · exact ⟨hnext, hsettled _ (.inl hold), hnot⟩
    · exact ⟨hlt _ hlisted, hsettled _ (.inr hlisted), hnot⟩

/-- The count of a list is of no account. -/
theorem Accounted.recount (h : b.Accounted) {f : PendingAuctions → PendingAuctions}
    (hplayer : ∀ pending, (f pending).player = pending.player)
    (hauctions : ∀ pending, (f pending).auctions = pending.auctions) :
    Accounted { b with pendingAuctionMap := b.pendingAuctionMap.map f } := by
  have hsettled : ∀ id, (∀ pending ∈ b.pendingAuctionMap.map f, id ∉ pending.auctions) ↔
      b.Settled id := by
    intro id
    rw [forall_mem_map]
    simp only [hauctions]
    rfl
  refine ⟨⟨?_, h.charged, h.covered⟩, h.purses, h.ids, h.fresh, h.bids, ?_, ?_, ?_, ?_, ?_, ?_, ?_⟩
  · rw [forall_mem_map]
    intro pending hmem id hid
    rw [hauctions] at hid
    exact h.live pending hmem id hid
  · rw [map_map, show PendingAuctions.player ∘ f = PendingAuctions.player from funext hplayer]
    exact h.players
  · rw [forall_mem_map]
    intro pending hmem
    rw [hauctions]
    exact h.nonempty pending hmem
  · rw [forall_mem_map]
    intro pending hmem
    rw [hauctions]
    exact h.distinct pending hmem
  · rw [forall_mem_map]
    intro pending hmem
    rw [hauctions, hplayer]
    exact h.owned pending hmem
  · intro auction hauction hnew hnot
    exact h.standing auction hauction ((hsettled _).mp hnew) hnot
  · exact fun id hid => ⟨(h.given id hid).1, (hsettled id).mpr (h.given id hid).2⟩
  · intro player deposits taken hcharge deposit hdeposit
    obtain ⟨hlt, hold, hnot⟩ := h.closed player deposits taken hcharge deposit hdeposit
    exact ⟨hlt, (hsettled _).mpr hold, hnot⟩

end Books

namespace AuctionState

open Books

variable {s : AuctionState} {pending : PendingAuctions}

/-! ### One player's list -/

/-- The shares of the deposits of a list. -/
def shares (env : AuctionEnv) (s : AuctionState) (pending : PendingAuctions) :
    AuctionEntry → AuctionEntry :=
  shared (s.totalDeposit env pending / pending.auctions.length) (s.totalDeposit env pending)
    pending.auctions

/-- The deposits that a charge stores. -/
def depositsOf (env : AuctionEnv) (s : AuctionState) (pending : PendingAuctions) :
    List (Nat × Nat) :=
  pending.auctions.map fun id => (id, ((s.adjust (s.shares env pending)).deref env id).deposit)

/-- The money of all players once the player is charged. -/
def chargedMoney (env : AuctionEnv) (s : AuctionState) (pending : PendingAuctions) : Nat → Nat :=
  (s.modifyMoney pending.player (-toInt64 (s.totalDeposit env pending))).money

/-- What a charge takes from the player. -/
def takenOf (env : AuctionEnv) (s : AuctionState) (pending : PendingAuctions) : Int :=
  s.money pending.player - s.chargedMoney env pending pending.player

theorem pendingAuctionProcess_eq :
    s.pendingAuctionProcess env pending =
      { s.adjust (s.shares env pending) with
        pendingAuctionMap := s.pendingAuctionMap.filter fun other => other.player ≠ pending.player
        money := s.chargedMoney env pending
        ledger := s.ledger ++
          [.charge pending.player (s.depositsOf env pending) (s.takenOf env pending)] } := by
  unfold pendingAuctionProcess takenOf chargedMoney depositsOf shares
  dsimp only
  rw [shareDeposit_eq]
  rfl

theorem deref_shares (h : s.books.Accounted) {auction : AuctionEntry}
    (hmem : auction ∈ s.auctions) :
    (s.adjust (s.shares env pending)).deref env auction.id = s.shares env pending auction := by
  have hkeeps : KeepsTerms (s.shares env pending) := keepsTerms_shared _ _ _
  have hfind : (s.auctions.find? fun other => other.id = auction.id) = some auction :=
    KeyedList.find?_of_mem h.ids hmem
  rw [deref_adjust hkeeps, hfind]
  rfl

/-- The deposits that are stored are all that is charged. -/
theorem sum_depositsOf (h : s.books.Accounted) (hmem : pending ∈ s.pendingAuctionMap) :
    ((s.depositsOf env pending).map Prod.snd).sum = s.totalDeposit env pending := by
  have hne := h.nonempty pending hmem
  have hlive : ∀ id ∈ pending.auctions, ((s.deref env id).id = id ∧
      (s.adjust (s.shares env pending)).deref env id = s.shares env pending (s.deref env id)) := by
    intro id hid
    obtain ⟨auction, hauction, rfl⟩ := h.live pending hmem id hid
    have hderef : s.deref env auction.id = auction := by
      have hfind : (s.auctions.find? fun other => other.id = auction.id) = some auction :=
        KeyedList.find?_of_mem h.ids hauction
      unfold deref
      rw [hfind]
      rfl
    exact ⟨by rw [hderef], by rw [deref_shares h hauction, hderef]⟩
  have hshare : s.totalDeposit env pending / pending.auctions.length *
      (pending.auctions.length - 1) ≤ s.totalDeposit env pending :=
    (Nat.mul_le_mul_left _ (Nat.sub_le _ 1)).trans (Nat.div_mul_le_self _ _)
  have hsum := sum_shared _ _ (h.distinct pending hmem) hne hshare fun id hid => (hlive id hid).1
  refine Eq.trans ?_ hsum
  unfold depositsOf
  rw [map_map]
  apply congrArg
  apply map_congr_left
  intro id hid
  simp only [comp, (hlive id hid).2]
  rfl

/-- A player who has his deposits pays them all. -/
theorem accounted_pendingAuctionProcess (h : s.books.Accounted)
    (hmem : pending ∈ s.pendingAuctionMap)
    (hmoney : s.totalDeposit env pending ≤ s.money pending.player) :
    (s.pendingAuctionProcess env pending).books.Accounted := by
  have hpurse : s.money pending.player ≤ MAX_MONEY_AMOUNT := h.purses pending.player
  have hcast : toInt64 (s.totalDeposit env pending) = s.totalDeposit env pending := by
    apply toInt64_of_lt
    unfold MAX_MONEY_AMOUNT at hpurse
    omega
  have htaken : s.takenOf env pending = s.totalDeposit env pending := by
    unfold takenOf chargedMoney modifyMoney
    dsimp only
    rw [update_self, hcast, modifyMoney_neg hmoney]
    omega
  have hkeeps : KeepsTerms (s.shares env pending) := keepsTerms_shared _ _ _
  rw [pendingAuctionProcess_eq]
  refine h.unlist hmem hkeeps ?_ ?_ (subset_append_left _ _) ?_ ?_ ?_
    (List.Subset.refl _) (fun id hid => .inl hid) ?_
  · intro auction hid
    exact congrArg AuctionEntry.deposit (shared_of_not_mem _ _ hid)
  · intro other
    exact (modifyMoney_le (hmoney.trans hpurse) other).trans (h.purses other)
  · intro player deposits taken hcharge
    rcases mem_append.mp hcharge with hold | hnew
    · exact h.charged player deposits taken hold
    · obtain ⟨rfl, rfl, rfl⟩ := LedgerEntry.charge.inj (mem_singleton.mp hnew)
      rw [sum_depositsOf h hmem, htaken]
  · apply covered_append h.covered
    intro e he
    rw [mem_singleton.mp he]
    trivial
  · intro auction hauction hid _
    refine ⟨s.depositsOf env pending, s.takenOf env pending, ?_, ?_⟩
    · rw [hkeeps.owner, h.owned pending hmem auction hauction hid]
      exact mem_append_right _ mem_cons_self
    · rw [hkeeps.id]
      refine mem_map.mpr ⟨auction.id, hid, ?_⟩
      rw [deref_shares h hauction]
  · intro player deposits taken hcharge deposit hdeposit
    rcases mem_append.mp hcharge with hold | hnew
    · obtain ⟨hlt, hsettled, hnot⟩ := h.closed player deposits taken hold deposit hdeposit
      exact ⟨.inl ⟨hlt, hsettled⟩, hnot⟩
    · obtain ⟨-, rfl, -⟩ := LedgerEntry.charge.inj (mem_singleton.mp hnew)
      obtain ⟨id, hid, rfl⟩ := mem_map.mp hdeposit
      exact ⟨.inr hid, fun hin => (h.given id hin).2 pending hmem hid⟩

/-- A player who does not have his deposits anymore pays less than them. -/
theorem not_sound_of_charge (h : s.books.Accounted) (hmem : pending ∈ s.pendingAuctionMap)
    (hmoney : s.money pending.player < s.totalDeposit env pending) {b : Books}
    (hledger : (s.pendingAuctionProcess env pending).ledger ⊆ b.ledger) : ¬b.Sound := by
  intro hsound
  rw [pendingAuctionProcess_eq] at hledger
  have hcharge := hsound.charged _ _ _ (hledger (mem_append_right _ mem_cons_self))
  rw [sum_depositsOf h hmem, takenOf] at hcharge
  omega

/-- What a player who is offline loses is the time of his auctions. -/
theorem expirePending_eq (s : AuctionState) (pending : PendingAuctions) :
    ∃ g, KeepsTerms g ∧ (∀ auction, (g auction).deposit = auction.deposit) ∧
      s.expirePending pending =
        { s.adjust g with
          pendingAuctionMap := s.pendingAuctionMap.filter fun other => other.player ≠ pending.player
          unpaid := s.unpaid ++ pending.auctions } := by
  have hfold : ∀ (ids : List Nat) (t : AuctionState), ∃ g, KeepsTerms g ∧
      (∀ auction, (g auction).deposit = auction.deposit) ∧
      ids.foldl (fun t id => t.modifyAuction id fun auction =>
        { auction with expireTime := t.time }) t = t.adjust g := by
    intro ids
    induction ids with
    | nil => exact fun t => ⟨id, keepsTerms_id, fun _ => rfl, adjust_id.symm⟩
    | cons id ids ih =>
      intro t
      obtain ⟨g, hg, hdeposit, heq⟩ :=
        ih (t.modifyAuction id fun auction => { auction with expireTime := t.time })
      refine ⟨_, hg.comp (keepsTerms_expireTime id t.time), fun auction => ?_, ?_⟩
      · simp only [comp, hdeposit]
        split <;> rfl
      · rw [foldl_cons, heq, ← adjust_adjust]
        rfl
  obtain ⟨g, hg, hdeposit, heq⟩ := hfold pending.auctions s
  refine ⟨g, hg, hdeposit, ?_⟩
  unfold expirePending
  rw [heq]
  rfl

theorem accounted_expirePending (h : s.books.Accounted) (hmem : pending ∈ s.pendingAuctionMap) :
    (s.expirePending pending).books.Accounted := by
  obtain ⟨g, hg, hdeposit, heq⟩ := expirePending_eq s pending
  rw [heq]
  refine h.unlist hmem hg (fun auction _ => hdeposit auction) h.purses (List.Subset.refl _)
    h.charged h.covered ?_ (subset_append_left _ _) (fun id hid => mem_append.mp hid) ?_
  · exact fun auction _ hid hnot => absurd (mem_append_right _ hid) hnot
  · intro player deposits taken hcharge deposit hpaid
    obtain ⟨hlt, hsettled, hnot⟩ := h.closed player deposits taken hcharge deposit hpaid
    refine ⟨.inl ⟨hlt, hsettled⟩, fun hin => ?_⟩
    rcases mem_append.mp hin with hold | hid
    · exact hnot hold
    · exact hsettled pending hmem hid

/-- The player has his deposits, when they are charged now. -/
def Affords (env : AuctionEnv) (s : AuctionState) (pending : PendingAuctions) : Prop :=
  s.connected pending.player → pending.auctions.length = pending.count →
    s.totalDeposit env pending ≤ s.money pending.player

theorem accounted_updatePending (h : s.books.Accounted) (hmem : pending ∈ s.pendingAuctionMap)
    (hafford : s.Affords env pending) : (s.updatePending env pending).books.Accounted := by
  unfold updatePending
  split
  · next hconnected =>
    split
    · next hcount => exact accounted_pendingAuctionProcess h hmem (hafford hconnected hcount)
    · refine h.recount ?_ ?_
      · intro other
        split <;> rfl
      · intro other
        split <;> rfl
  · exact accounted_expirePending h hmem

/-- The list of one player is of no account for that of another. -/
theorem updatePending_other {other : PendingAuctions} (hne : other.player ≠ pending.player) :
    (other ∈ s.pendingAuctionMap → other ∈ (s.updatePending env pending).pendingAuctionMap) ∧
      ((s.updatePending env pending).Affords env other ↔ s.Affords env other) := by
  have hfilter : other ∈ s.pendingAuctionMap →
      other ∈ s.pendingAuctionMap.filter fun other => other.player ≠ pending.player :=
    fun hmem => mem_filter.mpr ⟨hmem, decide_eq_true hne⟩
  unfold updatePending
  split
  · split
    · rw [pendingAuctionProcess_eq]
      refine ⟨hfilter, ?_⟩
      have hmoney : s.chargedMoney env pending other.player = s.money other.player :=
        update_of_ne hne _ _
      have htotal : (s.adjust (s.shares env pending)).totalDeposit env other =
          s.totalDeposit env other := totalDeposit_adjust (keepsTerms_shared _ _ _) other
      unfold Affords
      rw [← hmoney, ← htotal]
      exact Iff.rfl
    · refine ⟨fun hmem => mem_map.mpr ⟨other, hmem, if_neg hne⟩, Iff.rfl⟩
  · obtain ⟨g, hg, -, heq⟩ := expirePending_eq s pending
    rw [heq]
    refine ⟨hfilter, ?_⟩
    have htotal : (s.adjust g).totalDeposit env other = s.totalDeposit env other :=
      totalDeposit_adjust hg other
    unfold Affords
    rw [← htotal]
    exact Iff.rfl

theorem ledger_updatePending : s.ledger ⊆ (s.updatePending env pending).ledger := by
  unfold updatePending
  split
  · split
    · rw [pendingAuctionProcess_eq]
      exact subset_append_left _ _
    · exact List.Subset.refl _
  · obtain ⟨g, -, -, heq⟩ := expirePending_eq s pending
    rw [heq]
    exact List.Subset.refl _

/-! ### All lists -/

theorem accounted_foldl_updatePending {l : List PendingAuctions} (h : s.books.Accounted)
    (hmem : ∀ pending ∈ l, pending ∈ s.pendingAuctionMap)
    (hplayers : (l.map PendingAuctions.player).Nodup)
    (hafford : ∀ pending ∈ l, s.Affords env pending) :
    (l.foldl (updatePending env) s).books.Accounted := by
  induction l generalizing s with
  | nil => exact h
  | cons pending l ih =>
    rw [map_cons, nodup_cons] at hplayers
    have hother : ∀ other ∈ l, other.player ≠ pending.player := by
      intro other hother heq
      exact hplayers.1 (mem_map.mpr ⟨other, hother, heq⟩)
    rw [foldl_cons]
    apply ih (accounted_updatePending h (hmem pending mem_cons_self)
      (hafford pending mem_cons_self)) _ hplayers.2
    · intro other hin
      exact (updatePending_other (hother other hin)).2.mpr
        (hafford other (mem_cons_of_mem _ hin))
    · intro other hin
      exact (updatePending_other (hother other hin)).1 (hmem other (mem_cons_of_mem _ hin))

theorem ledger_foldl_updatePending (l : List PendingAuctions) :
    s.ledger ⊆ (l.foldl (updatePending env) s).ledger := by
  induction l generalizing s with
  | nil => exact List.Subset.refl _
  | cons pending l ih => exact List.Subset.trans ledger_updatePending ih

/-- The first player who does not have his deposits spoils the ledger. -/
theorem not_sound_foldl_updatePending {l : List PendingAuctions} (h : s.books.Accounted)
    (hmem : ∀ pending ∈ l, pending ∈ s.pendingAuctionMap)
    (hplayers : (l.map PendingAuctions.player).Nodup)
    (hpoor : ∃ pending ∈ l, ¬s.Affords env pending) :
    ¬(l.foldl (updatePending env) s).books.Sound := by
  induction l generalizing s with
  | nil =>
    obtain ⟨pending, hin, -⟩ := hpoor
    cases hin
  | cons pending l ih =>
    rw [map_cons, nodup_cons] at hplayers
    have hother : ∀ other ∈ l, other.player ≠ pending.player := by
      intro other hother heq
      exact hplayers.1 (mem_map.mpr ⟨other, hother, heq⟩)
    have hpending := hmem pending mem_cons_self
    rw [foldl_cons]
    by_cases hafford : s.Affords env pending
    · apply ih (accounted_updatePending h hpending hafford) _ hplayers.2
      · obtain ⟨other, hin, hnot⟩ := hpoor
        rcases mem_cons.mp hin with rfl | hin
        · exact absurd hafford hnot
        · exact ⟨other, hin, fun hof => hnot ((updatePending_other (hother other hin)).2.mp hof)⟩
      · intro other hin
        exact (updatePending_other (hother other hin)).1 (hmem other (mem_cons_of_mem _ hin))
    · unfold Affords at hafford
      push Not at hafford
      obtain ⟨hconnected, hcount, hless⟩ := hafford
      apply not_sound_of_charge h hpending hless
      have hprocess : s.updatePending env pending = s.pendingAuctionProcess env pending := by
        unfold updatePending
        rw [if_pos hconnected, if_pos hcount]
      rw [← hprocess]
      exact ledger_foldl_updatePending l

/-! ### Runs -/

theorem accounted_step (h : s.books.Accounted) {event : AuctionEvent} (hfits : s.Fits env event) :
    (s.step env event).books.Accounted := by
  cases event with
  | request request =>
    cases request with
    | sellItem player creature requests bid buyout etime =>
      exact accounted_sellItem h player creature requests bid buyout etime
    | placeBid => exact accounted_placeBid h hfits
    | removeItem => exact accounted_removeItem h hfits
    | update => exact accounted_update h hfits
    | presence => exact h.unchanged le_rfl rfl rfl rfl rfl h.purses
    | elapse => exact h.unchanged le_rfl rfl rfl rfl rfl h.purses
  | updatePendingAuctions => exact accounted_foldl_updatePending h (fun _ hmem => hmem) h.players hfits
  | spend player amount =>
    refine h.unchanged le_rfl rfl rfl rfl rfl fun other => ?_
    exact (spend_le player amount other).trans (h.purses other)

theorem not_sound_step (h : s.books.Accounted) {event : AuctionEvent}
    (hfits : ¬s.Fits env event) : ¬(s.step env event).books.Sound := by
  cases event with
  | request request =>
    cases request with
    | placeBid => exact not_sound_placeBid h hfits
    | removeItem => exact not_sound_removeItem h hfits
    | update => exact not_sound_update h hfits
    | sellItem => exact absurd trivial hfits
    | presence => exact absurd trivial hfits
    | elapse => exact absurd trivial hfits
  | updatePendingAuctions =>
    unfold Fits at hfits
    push Not at hfits
    obtain ⟨pending, hmem, hconnected, hcount, hless⟩ := hfits
    refine not_sound_foldl_updatePending h (fun _ hmem => hmem) h.players ⟨pending, hmem, ?_⟩
    exact fun hafford => absurd (hafford hconnected hcount) (by omega)
  | spend => exact absurd trivial hfits

end AuctionState

/-- Auctions whose deposits were all charged before, none of them pending. -/
structure Books.Opens (b : Books) : Prop where
  purses : ∀ player, b.money player ≤ MAX_MONEY_AMOUNT
  ids : (b.auctions.map AuctionEntry.id).Nodup
  fresh : ∀ auction ∈ b.auctions, auction.id < b.nextAuctionId
  bids : ∀ auction ∈ b.auctions, auction.buyout = 0 ∨ auction.bid < auction.buyout
  pending : b.pendingAuctionMap = []
  unpaid : b.unpaid = []
  paid : ∀ auction ∈ b.auctions, ChargedIn b.ledger auction
  ledger : ∀ e ∈ b.ledger, ∃ player deposits, e = .charge player deposits
    ((deposits.map Prod.snd).sum : Nat) ∧ ∀ deposit ∈ deposits, deposit.1 < b.nextAuctionId

theorem Books.Opens.accounted {b : Books} (h : b.Opens) : b.Accounted := by
  have hsettled : ∀ id, b.Settled id := by
    unfold Settled
    rw [h.pending]
    exact fun id => forall_mem_nil _
  refine ⟨⟨?_, fun player deposits taken hmem => ?_, fun before auction after heq => ?_⟩, h.purses,
    h.ids, h.fresh, h.bids, ?_, ?_, ?_, ?_, fun auction hmem _ _ => h.paid auction hmem, ?_,
    fun player deposits taken hmem deposit hdeposit => ?_⟩
  · rw [h.pending]
    exact forall_mem_nil _
  · obtain ⟨player', deposits', heq, -⟩ := h.ledger _ hmem
    obtain ⟨rfl, rfl, rfl⟩ := LedgerEntry.charge.inj heq
    rfl
  · obtain ⟨player, deposits, hsale, -⟩ := h.ledger (.sale auction) (by
      rw [heq]
      exact mem_append_right _ mem_cons_self)
    cases hsale
  · rw [h.pending]
    exact nodup_nil
  · rw [h.pending]
    exact forall_mem_nil _
  · rw [h.pending]
    exact forall_mem_nil _
  · rw [h.pending]
    exact forall_mem_nil _
  · rw [h.unpaid]
    exact forall_mem_nil _
  · obtain ⟨player', deposits', heq, hlt⟩ := h.ledger _ hmem
    obtain ⟨rfl, rfl, rfl⟩ := LedgerEntry.charge.inj heq
    rw [h.unpaid]
    exact ⟨hlt deposit hdeposit, hsettled deposit.1, not_mem_nil⟩

/-- Deposits are sound all through a run exactly when no pending auction ends in it, everyone who
is charged has his deposits, and no auction is sold whose deposit was given up. -/
theorem deposits_sound_iff_fits {s : AuctionState} (h : s.books.Opens)
    (events : List AuctionEvent) :
    (∀ before, before <+: events →
      (run (AuctionState.step env) s before).books.Sound) ↔
      Admits (AuctionState.step env) (AuctionState.Fits env) s events :=
  @run_prefixes_iff_of_strengthening _ _ _ _ _ (fun t : AuctionState => t.books.Accounted)
    (fun t : AuctionState => t.books.Sound) h.accounted (fun _ haccounted => haccounted.toSound)
    (fun _ _ haccounted hfits => AuctionState.accounted_step haccounted hfits)
    (fun _ _ haccounted hfits => AuctionState.not_sound_step haccounted hfits) events

/-- The first player sells the item, and the second buys it at once. -/
def quickSale : List AuctionEvent :=
  [.request (.sellItem 1 (some .neutral) [(7, 1)] 500 1000 720),
    .request (.placeBid 2 (some .neutral) 1 1000)]

theorem opens_twoPlayers : twoPlayers.books.Opens :=
  ⟨fun _ => show 5000 ≤ MAX_MONEY_AMOUNT by decide, nodup_nil, forall_mem_nil _, forall_mem_nil _, rfl, rfl,
    forall_mem_nil _, forall_mem_nil _⟩

/-- The second buys it once the deposit of the first is charged. -/
def chargedSale : List AuctionEvent :=
  [.request (.sellItem 1 (some .neutral) [(7, 1)] 500 1000 720), .updatePendingAuctions,
    .updatePendingAuctions, .request (.placeBid 2 (some .neutral) 1 1000)]

theorem deposits_sound_iff_fits_chargedSale :
    (∀ before, before <+: chargedSale →
      (run (AuctionState.step fixedDeposits) twoPlayers before).books.Sound) ↔
      Admits (AuctionState.step fixedDeposits) (AuctionState.Fits fixedDeposits) twoPlayers
        chargedSale :=
  deposits_sound_iff_fits opens_twoPlayers chargedSale

/-- The deposit of the sold auction was not charged, and its list still points to it. -/
theorem deposits_sound_fails_quickSale :
    ¬∀ before, before <+: quickSale →
      (run (AuctionState.step fixedDeposits) twoPlayers before).books.Sound := by
  intro h
  have hsound := h quickSale (prefix_refl _)
  have hpending : (run (AuctionState.step fixedDeposits) twoPlayers
      quickSale).books.pendingAuctionMap = [{ player := 1, auctions := [1], count := 0 }] := by
    decide +kernel
  have hnone : (run (AuctionState.step fixedDeposits) twoPlayers quickSale).books.auctions = [] := by
    decide +kernel
  have hlive := hsound.live
  rw [hpending, hnone] at hlive
  obtain ⟨auction, hmem, -⟩ := hlive _ mem_cons_self 1 mem_cons_self
  cases hmem

end TrinityCore.AuctionHouse
