import TrinityCore.Trading.TradeOffers

/-!
# Agreement of a trade

When a trade is executed, both sides have agreed to what changes hands, except that an item which
has left its owner is missing without a word.
-/

namespace TrinityCore.Trading

open Entities Function StateMachine

namespace TradeState

variable {rand32 : Nat → Nat} {start s t : TradeState} {side : Side} {a : AcceptTrade}

/-- The trade that a packet made execute in the state `s` is what both sides agreed to: both have
accepted since the last change; every item that was shown in a traded slot has gone from the one
inventory to the other, in the number that was shown, and nothing else has; the money has moved as it
was shown; everything that left its owner could be traded with the other side, and nothing was
offered twice. -/
structure Agreed (s t : TradeState) : Prop where
  accepted : ∀ side, HasAgreed t.log side
  items : ∀ side, ∀ slot < TRADE_SLOT_TRADED_COUNT, ∀ guid count,
    (s.shown side).items slot = some (guid, count) →
      ∃ item, s.inventory side guid = some item ∧ item.count = count ∧
        t.inventory side guid = none ∧
        t.inventory side.other guid = some { item with owner := side.other }
  others : ∀ guid,
    (∀ side, ∀ slot < TRADE_SLOT_TRADED_COUNT, ∀ count,
      (s.shown side).items slot ≠ some (guid, count)) →
    ∀ side, t.inventory side guid = s.inventory side guid
  money : ∀ side, t.money side + (s.shown side).gold = s.money side + (s.shown side.other).gold
  tradeable : ∀ side guid item, s.inventory side guid = some item → t.inventory side guid = none →
    item.canBeTraded = true ∧ item.isBindedNotWith side.other = false
  once : ∀ side side' slot slot' guid, (s.data side).items slot = some guid →
    (s.data side').items slot' = some guid → side = side' ∧ slot = slot'

/-- The packet makes the trade execute: the partner has accepted, and all checks pass. -/
structure Exchanges (s : TradeState) (side : Side) (a : AcceptTrade) : Prop where
  active : s.active = true
  current : (s.data side.other).serverStateIndex = a.stateIndex
  withinDist : a.withinDist = true
  enough : ∀ player, (s.data player).money ≤ s.money player
  notTooMuch : ∀ player, s.tooMuchGold player = false
  tradeable : s.itemsTradeable side = true
  accepted : (s.data side.other).accepted = true
  spells : ∀ player, s.spellReady a player = true
  fits : ∀ player, s.canStoreItems a player = true

/-- Every item that was shown to be traded is still there, and there is room for it at its turn. -/
def Complete (s : TradeState) (a : AcceptTrade) : Prop :=
  ∀ side, ∀ slot < TRADE_SLOT_TRADED_COUNT,
    ((s.shown side).items slot ≠ none → s.getItem side slot ≠ none) ∧
      (s.getItem side slot ≠ none → a.canStoreItem side.other slot = true)

/-- A trade as it begins: nothing is offered, and no item is in both inventories. -/
structure Begins (s : TradeState) : Prop where
  active : s.active = true
  data : ∀ side, s.data side = {}
  shown : ∀ side, (s.shown side).gold = 0 ∧ ∀ slot, (s.shown side).items slot = none
  held : ∀ side guid item, s.inventory side guid = some item →
    item.guid = guid ∧ item.owner = side
  apart : ∀ guid, s.inventory .initiator guid = none ∨ s.inventory .partner guid = none
  money : ∀ side, s.money side ≤ MAX_MONEY_AMOUNT

theorem Begins.opened (h : Begins s) : Open s s where
  trading :=
    { active := h.active
      held := by
        intro side guid item hitem
        obtain ⟨hguid, howner⟩ := h.held side guid item hitem
        exact ⟨hguid, howner, by simp [hitem]⟩
      money := h.money
      offers := by
        intro side slot guid hslot
        rw [h.data side] at hslot
        cases hslot
      agreed := by
        intro side haccepted
        rw [h.data side] at haccepted
        cases haccepted }
  shows := by
    intro side
    refine ⟨?_, fun slot item hitem => ?_, fun slot guid count hshown => ?_⟩
    · rw [(h.shown side).1, h.data side]
    · simp [getItem, h.data side] at hitem
    · rw [(h.shown side).2 slot] at hshown
      cases hshown

/-- Only one of the players had an item. -/
theorem Begins.eq_of_held (h : Begins s) {side side' : Side} {guid : Nat}
    (hside : (s.inventory side guid).isSome) (hside' : (s.inventory side' guid).isSome) :
    side = side' := by
  rcases h.apart guid with hnone | hnone <;>
    cases side <;> cases side' <;> simp_all

section Keeps

section

variable (h : Open start s)
include h

/-- Flags and indexes that change keep a trade going, as far as a side accepts only when it has
agreed. -/
theorem Open.setData {data : Side → TradeData} {log : List LogEntry}
    (hitems : ∀ side, (data side).items = (s.data side).items)
    (hmoney : ∀ side, (data side).money = (s.data side).money)
    (hagreed : ∀ side, (data side).accepted = true → HasAgreed log side) :
    Open start { s with data, log } where
  trading :=
    { active := h.trading.active
      held := h.trading.held
      money := h.trading.money
      offers := by
        intro side slot guid hslot
        dsimp only at hslot ⊢
        rw [hitems] at hslot ⊢
        exact h.trading.offers side slot guid hslot
      agreed := hagreed }
  shows := by
    intro side
    refine ⟨?_, fun slot item hitem => ?_, fun slot guid count hshown => ?_⟩
    · dsimp only
      rw [hmoney]
      exact (h.shows side).gold
    · apply (h.shows side).items slot item
      unfold getItem at hitem ⊢
      dsimp only at hitem
      rw [hitems] at hitem
      exact hitem
    · dsimp only
      rw [hitems]
      exact (h.shows side).offered slot guid count hshown

/-- The flag and the index of one side change. -/
theorem Open.setSide {side : Side} {data : TradeData} (hitems : data.items = (s.data side).items)
    (hmoney : data.money = (s.data side).money)
    (hagreed : data.accepted = true → HasAgreed s.log side) :
    Open start { s with data := update s.data side data } := by
  apply h.setData
  · intro player
    by_cases hplayer : player = side
    · rw [hplayer, update_self, hitems]
    · rw [update_of_ne hplayer]
  · intro player
    by_cases hplayer : player = side
    · rw [hplayer, update_self, hmoney]
    · rw [update_of_ne hplayer]
  · intro player haccepted
    by_cases hplayer : player = side
    · rw [hplayer, update_self] at haccepted
      rw [hplayer]
      exact hagreed haccepted
    · rw [update_of_ne hplayer] at haccepted
      exact h.trading.agreed player haccepted

theorem Open.setAccepted (side : Side) {state : Bool}
    (hstate : state = true → HasAgreed s.log side) : Open start (s.setAccepted side state) :=
  h.setSide rfl rfl hstate

theorem Open.unaccept (side : Side) : Open start (s.setAccepted side false) :=
  h.setAccepted side (by simp)

theorem Open.updateClientStateIndex (side : Side) : Open start (s.updateClientStateIndex side) :=
  h.setSide rfl rfl (h.trading.agreed side)

/-- Items that leave, or that keep guid, owner and count, change nothing that was shown. -/
theorem Open.setInventory {inventory : Side → Nat → Option TradeItem}
    (hbefore : ∀ side guid item, inventory side guid = some item →
      ∃ before, s.inventory side guid = some before ∧ item.guid = before.guid ∧
        item.owner = before.owner ∧ item.count = before.count) :
    Open start { s with inventory } where
  trading :=
    { active := h.trading.active
      held := by
        intro side guid item hitem
        obtain ⟨before, hheld, hguid, howner, -⟩ := hbefore side guid item hitem
        rw [hguid, howner]
        exact h.trading.held side guid before hheld
      money := h.trading.money
      offers := h.trading.offers
      agreed := h.trading.agreed }
  shows := by
    intro side
    refine ⟨(h.shows side).gold, fun slot item hitem => ?_, (h.shows side).offered⟩
    obtain ⟨guid, hslot, hheld⟩ := getItem_eq_some.mp hitem
    obtain ⟨before, hbefore, hguid, -, hcount⟩ := hbefore side guid item hheld
    rw [hguid, hcount]
    exact (h.shows side).items slot before (getItem_eq_some.mpr ⟨guid, hslot, hbefore⟩)

theorem Open.handleSetTradeItem (tradeSlot : Nat) (guid : Option Nat) :
    Open start (s.handleSetTradeItem rand32 side tradeSlot guid) := by
  unfold TradeState.handleSetTradeItem
  split
  · exact h
  · split
    · exact h
    · next hslot =>
      split
      · exact h
      · next item hitem =>
        split
        · exact h
        · split
          · exact h
          · next hnew =>
            have hindexed := h.updateClientStateIndex side
            dsimp only
            split
            · exact hindexed
            · apply hindexed.trading.setItem (hindexed.shows side.other)
                (fun _ => hindexed.shows side)
              intro itemGuid hguid
              cases hguid
              obtain ⟨guid, -, hheld⟩ := Option.bind_eq_some_iff.mp hitem
              obtain ⟨rfl, -, hstart⟩ := h.trading.held side guid item hheld
              refine ⟨by omega, hstart, fun other hother => ?_⟩
              -- no slot has the item yet
              have hitems : ((s.updateClientStateIndex side).data side).items =
                  (s.data side).items := by
                simp [TradeState.updateClientStateIndex]
              rw [hitems] at hother
              have hother7 := (h.trading.offers side other item.guid hother).1
              exfalso
              apply hnew
              unfold TradeData.hasItem
              rw [List.any_eq_true]
              exact ⟨other, List.mem_range.mpr hother7, decide_eq_true hother⟩

theorem Open.handleClearTradeItem (tradeSlot : Nat) :
    Open start (s.handleClearTradeItem rand32 side tradeSlot) := by
  unfold TradeState.handleClearTradeItem
  split
  · exact h
  · have hindexed := h.updateClientStateIndex side
    dsimp only
    split
    · exact hindexed
    · apply hindexed.trading.setItem (hindexed.shows side.other) (fun _ => hindexed.shows side)
      intro guid hguid
      cases hguid

/-- A stack that changes is shown again when it is offered. -/
theorem Open.setCount (side : Side) (guid value : Nat) :
    Open start (s.setCount rand32 side guid value) := by
  unfold TradeState.setCount
  split
  · exact h
  · next item hitem =>
    obtain ⟨hguid, howner, hstart⟩ := h.trading.held side guid item hitem
    have hne := side.other_ne
    have htrading : Trading start { s with
        inventory := update s.inventory side
          (update (s.inventory side) guid (some { item with count := value })) } := by
      refine ⟨h.trading.active, ?_, h.trading.money, h.trading.offers, h.trading.agreed⟩
      intro player other held hheld
      dsimp only at hheld
      by_cases hplayer : player = side
      · rw [hplayer, update_self] at hheld
        by_cases hother : other = guid
        · rw [hother, update_self] at hheld
          cases hheld
          rw [hother, hplayer]
          exact ⟨hguid, howner, hstart⟩
        · rw [update_of_ne hother] at hheld
          rw [hplayer]
          exact h.trading.held side other held hheld
      · rw [update_of_ne hplayer] at hheld
        exact h.trading.held player other held hheld
    have hother : Shows { s with
        inventory := update s.inventory side
          (update (s.inventory side) guid (some { item with count := value })) }
        side.other := by
      refine ⟨(h.shows side.other).gold, fun slot held hheld => ?_, (h.shows side.other).offered⟩
      apply (h.shows side.other).items slot held
      unfold getItem at hheld ⊢
      dsimp only at hheld
      rwa [update_of_ne hne] at hheld
    dsimp only
    split
    · next hinactive => simp [h.trading.active] at hinactive
    · cases hslot : (s.data side).getTradeSlotForItem guid with
      | none =>
        have hnot : ∀ slot, (s.data side).items slot ≠ some guid := by
          intro slot hoffered
          have hrange := (h.trading.offers side slot guid hoffered).1
          have hnone := List.find?_eq_none.mp hslot slot (List.mem_range.mpr hrange)
          exact hnone (decide_eq_true hoffered)
        refine ⟨htrading, fun player => ?_⟩
        rcases player.eq_or_eq_other side with rfl | rfl
        · refine ⟨(h.shows player).gold, fun slot held hheld => ?_, (h.shows player).offered⟩
          apply (h.shows player).items slot held
          obtain ⟨other, hoffered, hheld⟩ := getItem_eq_some.mp hheld
          dsimp only at hoffered hheld
          have hother : other ≠ guid := by
            rintro rfl
            exact hnot slot hoffered
          rw [update_self, update_of_ne hother] at hheld
          exact getItem_eq_some.mpr ⟨other, hoffered, hheld⟩
        · exact hother
      | some slot =>
        have hoffered : (s.data side).items slot = some guid := by
          simpa using List.find?_some hslot
        apply htrading.setItem hother (fun hupdate => absurd hupdate (by decide))
        intro itemGuid hitemGuid
        cases hitemGuid
        obtain ⟨hrange, hstart, honce⟩ := h.trading.offers side slot guid hoffered
        exact ⟨hrange, hstart, honce⟩

end

end Keeps

section Accept

/-- The trade once the packet was received and the flag was set. -/
def accepting (s : TradeState) (side : Side) (a : AcceptTrade) : TradeState :=
  ({ s with
    log := s.log ++ [LogEntry.accept side a.stateIndex
      (s.data side.other).serverStateIndex] }).setAccepted side true

section Accepting

variable (s side a)

@[simp] theorem accepting_inventory : (s.accepting side a).inventory = s.inventory := rfl

@[simp] theorem accepting_money : (s.accepting side a).money = s.money := rfl

@[simp] theorem accepting_shown : (s.accepting side a).shown = s.shown := rfl

@[simp] theorem accepting_log : (s.accepting side a).log =
    s.log ++ [LogEntry.accept side a.stateIndex (s.data side.other).serverStateIndex] := rfl

/-- Only the flag of the side is set. -/
theorem accepting_data (player : Side) : (s.accepting side a).data player =
    { s.data player with accepted := (s.data player).accepted || player = side } := by
  by_cases hplayer : player = side
  · simp [accepting, setAccepted, hplayer]
  · simp [accepting, setAccepted, hplayer]

@[simp] theorem accepting_getItem : (s.accepting side a).getItem = s.getItem := by
  funext player slot
  simp [getItem, accepting_data]

@[simp] theorem accepting_tooMuchGold (player : Side) :
    (s.accepting side a).tooMuchGold player = s.tooMuchGold player := by
  simp [tooMuchGold, accepting_data]

@[simp] theorem accepting_updateMoney (player : Side) :
    (s.accepting side a).updateMoney player = s.updateMoney player := by
  have hmoney : ∀ player, ((s.accepting side a).data player).money = (s.data player).money := by
    intro player
    rw [accepting_data]
  unfold updateMoney
  rw [accepting_money, hmoney, hmoney]

@[simp] theorem accepting_itemsTradeable (player : Side) :
    (s.accepting side a).itemsTradeable player = s.itemsTradeable player := by
  simp [itemsTradeable]

@[simp] theorem accepting_spellReady (player : Side) :
    (s.accepting side a).spellReady a player = s.spellReady a player := by
  simp [spellReady, accepting_data]

@[simp] theorem accepting_canStoreItems (player : Side) :
    (s.accepting side a).canStoreItems a player = s.canStoreItems a player := by
  simp [canStoreItems]

end Accepting

theorem Open.logAccept (h : Open start s) (side : Side) (stateIndex current : Nat) :
    Open start { s with log := s.log ++ [LogEntry.accept side stateIndex current] } := by
  apply h.setData
  · exact fun _ => rfl
  · exact fun _ => rfl
  · exact fun player haccepted => (h.trading.agreed player haccepted).accept side stateIndex current

/-- A packet that names the partner's current state counts as agreement. -/
theorem Open.accepting (h : Open start s)
    (hcurrent : (s.data side.other).serverStateIndex = a.stateIndex) :
    Open start (s.accepting side a) := by
  apply (h.logAccept side a.stateIndex _).setAccepted side
  intro _
  refine ⟨a.stateIndex, ?_⟩
  dsimp only
  rw [hcurrent, sinceChange_accept]
  exact List.mem_cons_self

/-- One that names another one does not. -/
theorem Open.accepting_undone (h : Open start s) :
    Open start ((s.accepting side a).setAccepted side false) := by
  have hundone : (s.accepting side a).setAccepted side false =
      ({ s with
        log := s.log ++ [LogEntry.accept side a.stateIndex
          (s.data side.other).serverStateIndex] }).setAccepted side false := by
    simp [TradeState.accepting, TradeState.setAccepted]
  rw [hundone]
  exact (h.logAccept side a.stateIndex _).unaccept side

/-- An accept packet either makes the trade execute, when all checks pass, or the trade goes on. -/
theorem Open.handleAcceptTrade (h : Open start s) :
    Exchanges s side a ∧
        s.handleAcceptTrade rand32 side a = (s.accepting side a).executeTrade a ∨
      ¬Exchanges s side a ∧ Open start (s.handleAcceptTrade rand32 side a) := by
  unfold TradeState.handleAcceptTrade
  rw [if_neg (by simp [h.trading.active])]
  dsimp only
  rw [← TradeState.accepting]
  by_cases hcurrent : (s.data side.other).serverStateIndex ≠ a.stateIndex
  · rw [if_pos hcurrent]
    exact Or.inr ⟨fun hx => hcurrent hx.current, h.accepting_undone⟩
  rw [if_neg hcurrent]
  have hcurrent : (s.data side.other).serverStateIndex = a.stateIndex := not_not.mp hcurrent
  have hopen := h.accepting hcurrent
  have hself : ((s.accepting side a).data side).money = (s.data side).money := by
    rw [accepting_data]
  have hother : ((s.accepting side a).data side.other).money = (s.data side.other).money := by
    rw [accepting_data]
  have haccepted : ((s.accepting side a).data side.other).accepted =
      (s.data side.other).accepted := by
    simp [accepting_data, side.other_ne]
  simp only [accepting_money, hself, hother, haccepted, accepting_tooMuchGold,
    accepting_itemsTradeable, accepting_spellReady, accepting_canStoreItems]
  by_cases hfar : (!a.withinDist) = true
  · rw [if_pos hfar]
    exact Or.inr ⟨fun hx => by simp [hx.withinDist] at hfar, hopen.unaccept side⟩
  rw [if_neg hfar]
  by_cases henough : (!hasEnoughMoney (s.money side) (s.data side).money) = true
  · rw [if_pos henough]
    exact Or.inr ⟨fun hx => by simp [hasEnoughMoney, hx.enough side] at henough,
      hopen.unaccept side⟩
  rw [if_neg henough]
  by_cases henough' : (!hasEnoughMoney (s.money side.other) (s.data side.other).money) = true
  · rw [if_pos henough']
    exact Or.inr ⟨fun hx => by simp [hasEnoughMoney, hx.enough side.other] at henough',
      hopen.unaccept side.other⟩
  rw [if_neg henough']
  by_cases hmuch : s.tooMuchGold side = true
  · rw [if_pos hmuch]
    exact Or.inr ⟨fun hx => by simp [hx.notTooMuch side] at hmuch, hopen.unaccept side⟩
  rw [if_neg hmuch]
  by_cases hmuch' : s.tooMuchGold side.other = true
  · rw [if_pos hmuch']
    exact Or.inr ⟨fun hx => by simp [hx.notTooMuch side.other] at hmuch',
      hopen.unaccept side.other⟩
  rw [if_neg hmuch']
  by_cases hbound : (!s.itemsTradeable side) = true
  · rw [if_pos hbound]
    exact Or.inr ⟨fun hx => by simp [hx.tradeable] at hbound, hopen⟩
  rw [if_neg hbound]
  by_cases halone : (!(s.data side.other).accepted) = true
  · rw [if_pos halone]
    exact Or.inr ⟨fun hx => by simp [hx.accepted] at halone, hopen⟩
  rw [if_neg halone]
  by_cases hspell : (!s.spellReady a side) = true
  · rw [if_pos hspell]
    exact Or.inr ⟨fun hx => by simp [hx.spells side] at hspell, hopen.setSpell 0 none⟩
  rw [if_neg hspell]
  by_cases hspell' : (!s.spellReady a side.other) = true
  · rw [if_pos hspell']
    exact Or.inr ⟨fun hx => by simp [hx.spells side.other] at hspell', hopen.setSpell 0 none⟩
  rw [if_neg hspell']
  by_cases hfull : (!s.canStoreItems a side || !s.canStoreItems a side.other) = true
  · rw [if_pos hfull]
    refine Or.inr ⟨fun hx => by simp [hx.fits side, hx.fits side.other] at hfull, ?_⟩
    exact (hopen.unaccept side).unaccept side.other
  rw [if_neg hfull]
  left
  refine ⟨⟨h.trading.active, hcurrent, by simpa using hfar, ?_, ?_, by simpa using hbound,
    by simpa using halone, ?_, ?_⟩, rfl⟩
  · intro player
    rcases player.eq_or_eq_other side with rfl | rfl
    · simpa [hasEnoughMoney] using henough
    · simpa [hasEnoughMoney] using henough'
  · intro player
    rcases player.eq_or_eq_other side with rfl | rfl
    · simpa using hmuch
    · simpa using hmuch'
  · intro player
    rcases player.eq_or_eq_other side with rfl | rfl
    · simpa using hspell
    · simpa using hspell'
  · intro player
    simp only [Bool.or_eq_true, Bool.not_eq_true', not_or, Bool.not_eq_false] at hfull
    rcases player.eq_or_eq_other side with rfl | rfl
    · exact hfull.1
    · exact hfull.2

end Accept

section Execute

/-- Who holds an object, and what it is. -/
def holders (guid : Nat) (t : TradeState) : Side → Option TradeItem :=
  fun player => t.inventory player guid

theorem holders_update (key guid : Nat) (item : Option TradeItem) :
    holders guid { t with
      inventory := update t.inventory side (update (t.inventory side) key item) } =
      if key = guid then update (t.holders guid) side item else t.holders guid := by
  funext player
  by_cases hkey : key = guid
  · subst hkey
    rw [if_pos rfl]
    by_cases hplayer : player = side
    · subst hplayer
      simp [holders]
    · simp [holders, hplayer]
  · rw [if_neg hkey]
    by_cases hplayer : player = side
    · subst hplayer
      simp [holders, update_of_ne (Ne.symm hkey)]
    · simp [holders, hplayer]

theorem removeItem_log (slot : Nat) : (removeItem s side slot t).log = t.log := by
  unfold removeItem
  split <;> rfl

theorem moveItems_log (slot : Nat) : (moveItems a s side slot t).log = t.log := by
  unfold moveItems
  split
  · rfl
  · split
    · rfl
    · split <;> rfl

theorem executeTrade_log : (s.executeTrade a).log = s.log := by
  unfold executeTrade
  dsimp only
  rw [run_view_of_unchanged (v := TradeState.log) fun _ _ _ => moveItems_log _,
    run_view_of_unchanged (v := TradeState.log) fun _ _ _ => removeItem_log _]

theorem executeTrade_money : (s.executeTrade a).money = s.updateMoney := by
  simp only [executeTrade]

theorem tradedItem_eq_some {slot : Nat} {item : TradeItem} :
    s.tradedItem side slot = some item ↔
      slot < TRADE_SLOT_TRADED_COUNT ∧ s.getItem side slot = some item := by
  unfold tradedItem
  split
  · next hslot => simp [hslot]
  · next hslot => simp [hslot]

theorem tradedItem_of_lt {slot : Nat} (hslot : slot < TRADE_SLOT_TRADED_COUNT) :
    s.tradedItem side slot = s.getItem side slot :=
  if_pos hslot

theorem mem_tradedSlots (side : Side) {slot : Nat} (hslot : slot < TRADE_SLOT_TRADED_COUNT) :
    (side, slot) ∈ tradedSlots := by
  refine List.mem_flatMap.mpr ⟨slot, List.mem_range.mpr hslot, ?_⟩
  cases side <;> simp

/-- A slot moves only the object that it had before the trade. -/
theorem removeItem_holders_of_ne {guid slot : Nat}
    (hother : ∀ item, s.tradedItem side slot = some item → item.guid ≠ guid) :
    (removeItem s side slot t).holders guid = t.holders guid := by
  unfold removeItem
  split
  · rfl
  · next item hitem =>
    unfold moveItemFromInventory
    rw [holders_update, if_neg (hother item hitem)]

theorem moveItems_holders_of_ne {guid slot : Nat}
    (hother : ∀ item, s.tradedItem side slot = some item → item.guid ≠ guid) :
    (moveItems a s side slot t).holders guid = t.holders guid := by
  unfold moveItems moveItemToInventory
  split
  · rfl
  · next item hitem =>
    split
    · rw [holders_update, if_neg (hother item hitem)]
    · split
      · rw [holders_update, if_neg (hother item hitem)]
      · rfl

/-- An object that is in no slot stays where it is. -/
theorem executeTrade_holders_of_ne {guid : Nat}
    (hother : ∀ side slot item, s.tradedItem side slot = some item → item.guid ≠ guid) :
    (s.executeTrade a).holders guid = s.holders guid := by
  unfold executeTrade
  change holders guid (run _ _ tradedSlots) = _
  rw [run_view_of_unchanged fun _ _ _ => moveItems_holders_of_ne (hother _ _),
    run_view_of_unchanged fun _ _ _ => removeItem_holders_of_ne (hother _ _)]

/-- An object that is in one slot leaves its owner; the other side gets it when both items of the
slot find room, and otherwise it goes back, if it can. -/
theorem executeTrade_holders {slot : Nat} {item : TradeItem}
    (hitem : s.tradedItem side slot = some item)
    (honce : ∀ p, ∀ other, s.tradedItem p.1 p.2 = some other → other.guid = item.guid →
      p = (side, slot)) :
    (s.executeTrade a).holders item.guid =
      let given := update (s.holders item.guid) side none
      if s.canTrade a slot then update given side.other (some { item with owner := side.other })
      else if a.canTakeBack side slot then update given side (some { item with owner := side })
      else given := by
  have hmem := mem_tradedSlots side (tradedItem_eq_some.mp hitem).1
  have hne : ∀ p, p ≠ (side, slot) → ∀ other, s.tradedItem p.1 p.2 = some other →
      other.guid ≠ item.guid :=
    fun p hp other hother hguid => hp (honce p other hother hguid)
  have hnodup : tradedSlots.Nodup := by decide
  unfold executeTrade
  change holders item.guid (run _ _ tradedSlots) = _
  -- each loop changes the holders of the object at its own slot only
  rw [run_view_of_mem hnodup hmem (v := holders item.guid)
    (g := fun given =>
      if s.canTrade a slot then update given side.other (some { item with owner := side.other })
      else if a.canTakeBack side slot then update given side (some { item with owner := side })
      else given)
    ?_ fun t p _ hp => moveItems_holders_of_ne (hne p hp)]
  · rw [run_view_of_mem hnodup hmem (g := fun held => update held side none) ?_
      fun t p _ hp => removeItem_holders_of_ne (hne p hp)]
    intro t
    simp only [removeItem, hitem, moveItemFromInventory]
    rw [holders_update, if_pos rfl]
  · intro t
    simp only [moveItems, hitem, moveItemToInventory]
    split
    · rw [holders_update, if_pos rfl]
    · split
      · rw [holders_update, if_pos rfl]
      · rfl

/-- Money that a player gives and gets, as far as he may have it. -/
theorem tradeMoney_add {money own other : Nat} (hown : own ≤ money)
    (hmoney : money ≤ MAX_MONEY_AMOUNT) (hother : other ≤ MAX_MONEY_AMOUNT)
    (hroom : ¬(MAX_MONEY_AMOUNT + 2 ^ 64 - other) % 2 ^ 64 < money) :
    tradeMoney money own other + own = money + other := by
  have hbound : MAX_MONEY_AMOUNT < 2 ^ 63 := by decide
  have hpaid : modifiedMoney money (-(own : Int)) = money - own := by
    unfold modifiedMoney
    rw [modifyMoney_neg hown]
  have hgot : modifiedMoney (money - own) other = money - own + other := by
    unfold modifiedMoney
    rw [modifyMoney_pos hother (by omega), if_pos (by omega)]
  unfold tradeMoney
  rw [toInt64_of_lt (by omega), toInt64_of_lt (by omega), hpaid, hgot]
  omega

@[simp] theorem accepting_tradedItem : (s.accepting side a).tradedItem = s.tradedItem := by
  funext player slot
  simp [tradedItem]

@[simp] theorem accepting_canTrade : (s.accepting side a).canTrade a = s.canTrade a := by
  funext slot
  simp [canTrade]

/-- There is room for both items of a slot of a complete trade. -/
theorem Complete.canTrade (h : Complete s a) {slot : Nat} (hslot : slot < TRADE_SLOT_TRADED_COUNT) :
    s.canTrade a slot = true := by
  have hroom : ∀ player : Side,
      ((s.tradedItem player slot).isNone || a.canStoreItem player.other slot) = true := by
    intro player
    rw [tradedItem_of_lt hslot]
    cases hitem : s.getItem player slot with
    | none => rfl
    | some item =>
      rw [(h player slot hslot).2 (by simp [hitem]), Bool.or_true]
  unfold TradeState.canTrade
  rw [Bool.and_eq_true]
  exact ⟨hroom .initiator, hroom .partner⟩

/-- A slot whose item finds no room is not traded. -/
theorem canTrade_eq_false {slot : Nat} (hslot : slot < TRADE_SLOT_TRADED_COUNT)
    (hitem : s.getItem side slot ≠ none) (hroom : a.canStoreItem side.other slot = false) :
    s.canTrade a slot = false := by
  unfold canTrade
  rw [tradedItem_of_lt hslot, tradedItem_of_lt hslot]
  obtain ⟨item, hitem⟩ := Option.ne_none_iff_exists'.mp hitem
  cases side with
  | initiator =>
    have hroom : a.canStoreItem .partner slot = false := hroom
    simp [hitem, hroom]
  | partner =>
    have hroom : a.canStoreItem .initiator slot = false := hroom
    simp [hitem, hroom]

/-- What changed hands could be traded and was not bound to its old owner. -/
theorem Exchanges.tradeable_item (h : Exchanges s side a) {player : Side} {slot : Nat}
    {item : TradeItem} (hitem : s.tradedItem player slot = some item) :
    item.canBeTraded = true ∧ item.isBindedNotWith player.other = false := by
  obtain ⟨hslot, hitem⟩ := tradedItem_eq_some.mp hitem
  have hfits := h.fits player.other
  unfold canStoreItems at hfits
  rw [Bool.and_eq_true, List.all_eq_true] at hfits
  have hfits := hfits.2 slot (List.mem_range.mpr hslot)
  have htradeable := h.tradeable
  unfold itemsTradeable at htradeable
  rw [List.all_eq_true] at htradeable
  have htradeable := htradeable slot (List.mem_range.mpr hslot)
  rw [Bool.and_eq_true] at htradeable
  rw [Side.other_other, hitem, Option.all_some, Bool.and_eq_true] at hfits
  refine ⟨?_, by simpa using hfits.2⟩
  rcases player.eq_or_eq_other side with rfl | rfl
  · have hself := htradeable.1
    rw [hitem, Option.all_some, Bool.and_eq_true] at hself
    exact hself.1
  · have hother := htradeable.2
    rw [hitem, Option.all_some] at hother
    exact hother

theorem Exchanges.money_exchange (h : Exchanges s side a)
    (hmoney : ∀ player, s.money player ≤ MAX_MONEY_AMOUNT) (player : Side) :
    s.updateMoney player + (s.data player).money =
      s.money player + (s.data player.other).money := by
  have hmuch := h.notTooMuch player
  unfold tooMuchGold at hmuch
  exact tradeMoney_add (h.enough player) (hmoney player)
    ((h.enough player.other).trans (hmoney player.other)) (of_decide_eq_false hmuch)

/-- Only the player who has an object may be the one who had it. -/
theorem Trading.eq_of_held (h : Trading start s) (hbegins : Begins start) {player player' : Side}
    {guid : Nat} {item item' : TradeItem} (hitem : s.inventory player guid = some item)
    (hitem' : s.inventory player' guid = some item') : player = player' ∧ item = item' := by
  obtain rfl := hbegins.eq_of_held (h.held player guid item hitem).2.2
    (h.held player' guid item' hitem').2.2
  exact ⟨rfl, Option.some_inj.mp (hitem.symm.trans hitem')⟩

/-- The item of a traded slot is in its owner's inventory, under the guid that is offered. -/
theorem Trading.held_of_tradedItem (h : Trading start s) {player : Side} {slot : Nat}
    {item : TradeItem} (hitem : s.tradedItem player slot = some item) :
    (s.data player).items slot = some item.guid ∧
      s.inventory player item.guid = some item := by
  obtain ⟨guid, hslot, hheld⟩ := getItem_eq_some.mp (tradedItem_eq_some.mp hitem).2
  obtain ⟨rfl, -⟩ := h.held player guid item hheld
  exact ⟨hslot, hheld⟩

/-- It is in no other slot. -/
theorem Trading.traded_once (h : Trading start s) (hbegins : Begins start) {player : Side}
    {slot : Nat} {item : TradeItem} (hitem : s.tradedItem player slot = some item)
    (p : Side × Nat) (other : TradeItem) (hother : s.tradedItem p.1 p.2 = some other)
    (hguid : other.guid = item.guid) : p = (player, slot) := by
  obtain ⟨hslot, hheld⟩ := h.held_of_tradedItem hitem
  obtain ⟨hslot', hheld'⟩ := h.held_of_tradedItem hother
  rw [hguid] at hslot' hheld'
  have hplayer := (h.eq_of_held hbegins hheld' hheld).1
  rw [hplayer] at hslot'
  exact Prod.ext hplayer ((h.offers player slot item.guid hslot).2.2 p.2 hslot')

/-- An item that changes hands is the other side's afterwards, or it is not when it finds no room. -/
theorem Trading.holders_executeTrade (h : Trading start s) (hbegins : Begins start)
    {player : Side} {slot : Nat} {item : TradeItem}
    (hitem : s.tradedItem player slot = some item) :
    (s.canTrade a slot = true →
      ((s.accepting side a).executeTrade a).inventory player item.guid = none ∧
        ((s.accepting side a).executeTrade a).inventory player.other item.guid =
          some { item with owner := player.other }) ∧
    (s.canTrade a slot = false →
      ((s.accepting side a).executeTrade a).inventory player.other item.guid = none) := by
  have htraded : (s.accepting side a).tradedItem player slot = some item := by
    rw [accepting_tradedItem, hitem]
  have honce : ∀ p, ∀ other, (s.accepting side a).tradedItem p.1 p.2 = some other →
      other.guid = item.guid → p = (player, slot) := by
    rw [accepting_tradedItem]
    exact h.traded_once hbegins hitem
  have hholders := executeTrade_holders (a := a) htraded honce
  rw [accepting_canTrade] at hholders
  have hself := congrFun hholders player
  have hother := congrFun hholders player.other
  have hne := player.other_ne
  have hnone : s.inventory player.other item.guid = none := by
    by_contra hsome
    obtain ⟨held, hheld⟩ := Option.ne_none_iff_exists'.mp hsome
    exact hne (h.eq_of_held hbegins hheld (h.held_of_tradedItem hitem).2).1
  constructor
  · intro hroom
    rw [hroom, if_pos rfl] at hself hother
    rw [update_of_ne hne.symm, update_self] at hself
    rw [update_self] at hother
    exact ⟨hself, hother⟩
  · intro hroom
    rw [hroom, if_neg (by decide)] at hother
    have hgiven : update ((s.accepting side a).holders item.guid) player none player.other =
        none := by
      rw [update_of_ne hne]
      exact hnone
    split at hother
    · rw [update_of_ne hne, hgiven] at hother
      exact hother
    · rw [hgiven] at hother
      exact hother

/-- A trade that passed all checks executes what was agreed exactly when it is complete. -/
theorem Open.agreed_executeTrade (h : Open start s) (hbegins : Begins start)
    (hx : Exchanges s side a) :
    Agreed s ((s.accepting side a).executeTrade a) ↔ Complete s a := by
  have htrading := h.trading
  constructor
  · intro hagreed player slot hslot
    refine ⟨fun hshown => ?_, fun hitem => ?_⟩
    · obtain ⟨⟨guid, count⟩, hshown⟩ := Option.ne_none_iff_exists'.mp hshown
      obtain ⟨item, hheld, -⟩ := hagreed.items player slot hslot guid count hshown
      have hoffered := (h.shows player).offered slot guid count hshown
      exact Option.ne_none_iff_exists'.mpr ⟨item, getItem_eq_some.mpr ⟨guid, hoffered, hheld⟩⟩
    · by_contra hroom
      have hfull := canTrade_eq_false hslot hitem (by simpa using hroom)
      obtain ⟨item, hitem⟩ := Option.ne_none_iff_exists'.mp hitem
      have hshown := (h.shows player).items slot item hitem
      obtain ⟨moved, -, -, -, hgot⟩ := hagreed.items player slot hslot _ _ hshown
      have htraded := tradedItem_eq_some.mpr ⟨hslot, hitem⟩
      rw [(htrading.holders_executeTrade hbegins htraded).2 hfull] at hgot
      cases hgot
  · intro hcomplete
    have hopen : Open start (s.accepting side a) := h.accepting hx.current
    refine ⟨?_, ?_, ?_, ?_, ?_, ?_⟩
    · intro player
      rw [executeTrade_log]
      apply hopen.trading.agreed
      rcases player.eq_or_eq_other side with rfl | rfl
      · simp [accepting_data]
      · simp [accepting_data, hx.accepted]
    · intro player slot hslot guid count hshown
      obtain ⟨item, hitem⟩ := Option.ne_none_iff_exists'.mp
        ((hcomplete player slot hslot).1 (by simp [hshown]))
      have htraded := tradedItem_eq_some.mpr ⟨hslot, hitem⟩
      rw [(h.shows player).items slot item hitem] at hshown
      cases hshown
      exact ⟨item, (htrading.held_of_tradedItem htraded).2, rfl,
        (htrading.holders_executeTrade hbegins htraded).1 (hcomplete.canTrade hslot)⟩
    · intro guid hother player
      have huntraded : ∀ owner slot item, (s.accepting side a).tradedItem owner slot = some item →
          item.guid ≠ guid := by
        rw [accepting_tradedItem]
        rintro owner slot item hitem rfl
        obtain ⟨hslot, hitem⟩ := tradedItem_eq_some.mp hitem
        exact hother owner slot hslot item.count ((h.shows owner).items slot item hitem)
      exact congrFun (executeTrade_holders_of_ne huntraded) player
    · intro player
      rw [executeTrade_money, accepting_updateMoney, (h.shows player).gold, (h.shows player.other).gold]
      exact hx.money_exchange htrading.money player
    · intro player guid item hheld hgone
      -- only the items of the slots have left their owners
      by_contra hbad
      have huntraded : ∀ owner slot item, (s.accepting side a).tradedItem owner slot = some item →
          item.guid ≠ guid := by
        rw [accepting_tradedItem]
        rintro owner slot traded htraded rfl
        obtain ⟨rfl, rfl⟩ := htrading.eq_of_held hbegins
          (htrading.held_of_tradedItem htraded).2 hheld
        exact hbad (hx.tradeable_item htraded)
      have hstays : ((s.accepting side a).executeTrade a).inventory player guid =
          s.inventory player guid :=
        congrFun (executeTrade_holders_of_ne huntraded) player
      rw [hgone, hheld] at hstays
      cases hstays
    · intro player player' slot slot' guid hguid hguid'
      obtain ⟨-, hstart, honce⟩ := htrading.offers player slot guid hguid
      obtain ⟨-, hstart', -⟩ := htrading.offers player' slot' guid hguid'
      obtain rfl := hbegins.eq_of_held hstart hstart'
      exact ⟨rfl, (honce slot' hguid').symm⟩

end Execute

end TradeState

end TrinityCore.Trading
