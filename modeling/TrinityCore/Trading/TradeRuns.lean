import TrinityCore.Trading.TradeAgreement

/-!
# Runs of a trade

In every run from the begin of a trade, whatever the two players send and whatever happens to their
items, what executes is what was agreed exactly when every trade that executes is complete.
-/

namespace TrinityCore.Trading

open Function

open Entities StateMachine

namespace TradeState

variable {rand32 : Nat → Nat} {start s : TradeState} {event : TradeEvent}

variable (rand32) in
/-- A packet that makes the trade execute, which is then over, executes what both sides agreed to.
-/
def AgreesOn (s : TradeState) : TradeEvent → Prop
  | .acceptTrade side a =>
    s.active = true → (s.step rand32 (.acceptTrade side a)).active = false →
      Agreed s (s.step rand32 (.acceptTrade side a))
  | _ => True

/-- A packet that makes the trade execute finds it complete. -/
def StaysComplete (s : TradeState) : TradeEvent → Prop
  | .acceptTrade side a => Exchanges s side a → Complete s a
  | _ => True

variable (rand32) in
/-- A trade that is over stays over. -/
theorem step_inactive (h : s.active = false) (event : TradeEvent) :
    (s.step rand32 event).active = false := by
  cases event with
  | setTradeGold side coinage => simp [step, handleSetTradeGold, h]
  | setTradeItem side tradeSlot guid => simp [step, handleSetTradeItem, h]
  | clearTradeItem side tradeSlot => simp [step, handleClearTradeItem, h]
  | acceptTrade side a => simp [step, handleAcceptTrade, h]
  | unacceptTrade side => simp [step, handleUnacceptTrade, h]
  | cancelTrade => simp [step, tradeCancel]
  | castSpell side spellId castItem => simp [step, h]
  | setCount side guid value =>
    simp only [step, setCount]
    split
    · exact h
    · simp [h]
  | itemLeaves side guid => exact h
  | itemChanges side guid flags => exact h
  | moneyChanges side money => exact h

variable (rand32) in
/-- A trade goes on until it is over. -/
theorem Open.step (h : Open start s) (event : TradeEvent)
    (hactive : (s.step rand32 event).active = true) : Open start (s.step rand32 event) := by
  cases event with
  | setTradeGold side coinage =>
    simp only [TradeState.step, handleSetTradeGold]
    split
    · exact h
    · exact (h.updateClientStateIndex side).setMoney coinage
  | setTradeItem side tradeSlot guid => exact h.handleSetTradeItem tradeSlot guid
  | clearTradeItem side tradeSlot => exact h.handleClearTradeItem tradeSlot
  | acceptTrade side a =>
    rcases h.handleAcceptTrade with ⟨-, hexecutes⟩ | ⟨-, hopen⟩
    · -- the trade that executes is over
      simp only [TradeState.step] at hactive
      rw [hexecutes] at hactive
      cases hactive
    · exact hopen
  | unacceptTrade side =>
    simp only [TradeState.step, handleUnacceptTrade]
    split
    · exact h
    · exact h.unaccept side
  | cancelTrade => cases hactive
  | castSpell side spellId castItem =>
    simp only [TradeState.step]
    split
    · exact h
    · exact h.setSpell spellId castItem
  | setCount side guid value => exact h.setCount side guid value
  | itemLeaves side guid =>
    apply h.setInventory
    intro player other item hitem
    refine ⟨item, ?_, rfl, rfl, rfl⟩
    by_cases hplayer : player = side
    · rw [hplayer, update_self] at hitem
      by_cases hother : other = guid
      · rw [hother, update_self] at hitem
        cases hitem
      · rw [update_of_ne hother] at hitem
        rw [hplayer]
        exact hitem
    · rwa [update_of_ne hplayer] at hitem
  | itemChanges side guid flags =>
    apply h.setInventory
    intro player other item hitem
    by_cases hplayer : player = side
    · rw [hplayer, update_self] at hitem
      by_cases hother : other = guid
      · rw [hother, update_self] at hitem
        obtain ⟨before, hbefore, rfl⟩ := Option.map_eq_some_iff.mp hitem
        exact ⟨before, by rw [hplayer, hother, hbefore], rfl, rfl, rfl⟩
      · rw [update_of_ne hother] at hitem
        exact ⟨item, by rw [hplayer, hitem], rfl, rfl, rfl⟩
    · rw [update_of_ne hplayer] at hitem
      exact ⟨item, hitem, rfl, rfl, rfl⟩
  | moneyChanges side money =>
    refine ⟨⟨h.trading.active, h.trading.held, ?_, h.trading.offers, h.trading.agreed⟩,
      fun player => ⟨(h.shows player).gold, (h.shows player).items, (h.shows player).offered⟩⟩
    intro player
    by_cases hplayer : player = side
    · simp [TradeState.step, hplayer]
    · simp only [TradeState.step, update_of_ne hplayer]
      exact h.trading.money player

/-- Of a trade that goes on, a packet executes what was agreed exactly when it finds it complete. -/
theorem Open.agreesOn_iff (h : Open start s) (hbegins : Begins start) (event : TradeEvent) :
    s.AgreesOn rand32 event ↔ s.StaysComplete event := by
  cases event with
  | acceptTrade side a =>
    change (s.active = true → (s.handleAcceptTrade rand32 side a).active = false →
      Agreed s (s.handleAcceptTrade rand32 side a)) ↔ (Exchanges s side a → Complete s a)
    rcases h.handleAcceptTrade with ⟨hx, hexecutes⟩ | ⟨hnot, hopen⟩
    · rw [hexecutes, h.agreed_executeTrade hbegins hx]
      exact ⟨fun hcomplete _ => hcomplete hx.active rfl, fun hcomplete _ _ => hcomplete hx⟩
    · refine ⟨fun _ hx => absurd hx hnot, fun _ _ hover => ?_⟩
      rw [hopen.trading.active] at hover
      cases hover
  | _ => exact Iff.rfl

/-- In a run from the begin of a trade, every packet that makes the trade execute executes what both
sides agreed to, exactly when every such packet finds all items that were shown in the inventories of
their owners, and room for each of them at its turn. -/
theorem trade_agreed_iff_complete (rand32 : Nat → Nat) (s : TradeState) (hbegins : Begins s)
    (events : List TradeEvent) :
    Admits (TradeState.step rand32) (AgreesOn rand32) s events ↔
      Admits (TradeState.step rand32) StaysComplete s events := by
  apply @admits_congr_of_invariant _ _ _ _ _ fun t => t.active = true → Open s t
  · exact fun _ => hbegins.opened
  · intro t event hopen hactive
    cases hbefore : t.active with
    | false =>
      rw [step_inactive rand32 hbefore] at hactive
      cases hactive
    | true => exact (hopen hbefore).step rand32 event hactive
  · intro t event hopen
    cases hactive : t.active with
    | true => exact (hopen hactive).agreesOn_iff hbegins event
    | false =>
      cases event with
      | acceptTrade side a =>
        refine ⟨fun _ hx => ?_, fun _ hopened => ?_⟩
        · rw [hx.active] at hactive
          cases hactive
        · rw [hactive] at hopened
          cases hopened
      | _ => exact Iff.rfl

/-- The initiator has five of an item and the partner a hundred copper. -/
def oneItemTrade : TradeState where
  active := true
  data := fun _ => {}
  inventory := fun side guid =>
    if side = .initiator ∧ guid = 7 then
      some
        { guid := 7, count := 5, owner := .initiator
          flags :=
            { lootGenerated := false, soulBound := false, bopTradeable := false
              boundAccountWide := false, bagInUse := false, canUnequip := true, looted := false
              boundByEnchant := false, allowedGuids := [] } }
    else none
  money := fun side => if side = .partner then 100 else 0
  rands := 0
  shown := fun _ => { gold := 0, proposedEnchantment := 0, items := fun _ => none }
  log := []

theorem oneItemTrade_begins : Begins oneItemTrade where
  active := rfl
  data := fun _ => rfl
  shown := fun _ => ⟨rfl, fun _ => rfl⟩
  held := by
    intro side guid item hitem
    simp only [oneItemTrade] at hitem
    split at hitem
    · next hheld =>
      cases hitem
      exact ⟨hheld.2.symm, hheld.1.symm⟩
    · cases hitem
  apart := fun _ => .inr rfl
  money := by
    intro side
    cases side <;> decide

/-- The partner buys five of the item, and both accept. -/
def soldItem : List TradeEvent :=
  [.setTradeItem .initiator 0 (some 7), .setTradeGold .partner 100,
    .acceptTrade .partner { stateIndex := 2 }, .acceptTrade .initiator { stateIndex := 3 }]

theorem trade_agreed_iff_complete_oneItem :
    Admits (TradeState.step (· + 2)) (AgreesOn (· + 2)) oneItemTrade soldItem ∧
      (run (TradeState.step (· + 2)) oneItemTrade soldItem).active = false ∧
      (run (TradeState.step (· + 2)) oneItemTrade soldItem).inventory .initiator 7 = none ∧
      ((run (TradeState.step (· + 2)) oneItemTrade soldItem).inventory .partner 7).map
        (fun item => (item.count, item.owner)) = some (5, .partner) ∧
      (run (TradeState.step (· + 2)) oneItemTrade soldItem).money .initiator = 100 ∧
      (run (TradeState.step (· + 2)) oneItemTrade soldItem).money .partner = 0 := by
  refine ⟨?_, by decide +kernel⟩
  apply (trade_agreed_iff_complete (· + 2) oneItemTrade oneItemTrade_begins soldItem).mpr
  refine ⟨trivial, trivial, fun _ side => ?_, fun _ side => ?_, trivial⟩
  · cases side <;> decide +kernel
  · cases side <;> decide +kernel

/-- The partner accepts five of the item for his money, and the initiator mails the item away
before he accepts himself. -/
def mailedItem : List TradeEvent :=
  [.setTradeItem .initiator 0 (some 7), .setTradeGold .partner 100,
    .acceptTrade .partner { stateIndex := 2 }, .itemLeaves .initiator 7,
    .acceptTrade .initiator { stateIndex := 3 }]

/-- He pays and gets nothing. -/
theorem trade_agreed_fails_mailedItem :
    Begins oneItemTrade ∧
      (run (TradeState.step (· + 2)) oneItemTrade mailedItem).active = false ∧
      (run (TradeState.step (· + 2)) oneItemTrade mailedItem).inventory .partner 7 = none ∧
      (run (TradeState.step (· + 2)) oneItemTrade mailedItem).money .initiator = 100 ∧
      (run (TradeState.step (· + 2)) oneItemTrade mailedItem).money .partner = 0 ∧
      ¬Admits (TradeState.step (· + 2)) (AgreesOn (· + 2)) oneItemTrade mailedItem := by
  refine ⟨oneItemTrade_begins, by decide +kernel, by decide +kernel, by decide +kernel,
    by decide +kernel, fun hadmits => ?_⟩
  have hagreed := hadmits.2.2.2.2.1 (by decide +kernel) (by decide +kernel)
  obtain ⟨item, hitem, -⟩ := hagreed.items .initiator 0 (by decide) 7 5 (by decide +kernel)
  have hgone : (run (TradeState.step (· + 2)) oneItemTrade
      (mailedItem.take 4)).inventory .initiator 7 = none := by decide +kernel
  cases hitem.symm.trans hgone

end TradeState

end TrinityCore.Trading
