import TrinityCore.Trading.TradeHandler

/-!
# Offers of a trade

What a change of an offer does to a trade, and what holds of the offers while the trade goes on:
each item is offered in one slot only, the partner was shown what is offered, and a side counts as
accepting only when it named the partner's current state after the last change.
-/

namespace TrinityCore.Trading

open Function

open Entities

theorem Side.other_ne (side : Side) : side.other ≠ side := by
  cases side <;> decide

@[simp] theorem Side.other_other (side : Side) : side.other.other = side := by
  cases side <;> rfl

/-- A player is one of the two. -/
theorem Side.eq_or_eq_other (a b : Side) : a = b ∨ a = b.other := by
  cases a <;> cases b <;> decide

def LogEntry.isChange : LogEntry → Bool
  | change _ => true
  | accept _ _ _ => false

/-- What happened after the last change of either offer, latest first. -/
def sinceChange (log : List LogEntry) : List LogEntry := log.reverse.takeWhile fun e => !e.isChange

@[simp] theorem sinceChange_accept (log : List LogEntry) (side : Side) (stateIndex current : Nat) :
    sinceChange (log ++ [.accept side stateIndex current]) =
      .accept side stateIndex current :: sinceChange log := by
  simp [sinceChange, LogEntry.isChange]

/-- The side has named the partner's current state since the last change. -/
def HasAgreed (log : List LogEntry) (side : Side) : Prop :=
  ∃ stateIndex, LogEntry.accept side stateIndex stateIndex ∈ sinceChange log

theorem HasAgreed.accept {log : List LogEntry} {side : Side} (h : HasAgreed log side)
    (other : Side) (stateIndex current : Nat) :
    HasAgreed (log ++ [.accept other stateIndex current]) side := by
  obtain ⟨named, hmem⟩ := h
  refine ⟨named, ?_⟩
  rw [sinceChange_accept]
  exact List.mem_cons_of_mem _ hmem

namespace TradeState

section ChangeOffer

variable (rand32 : Nat → Nat) (s : TradeState) (side : Side) (change : TradeData → TradeData)

@[simp] theorem changeOffer_inventory :
    (s.changeOffer rand32 side change).inventory = s.inventory := rfl

theorem changeOffer_data_self : (s.changeOffer rand32 side change).data side =
    { change (s.data side) with accepted := false, serverStateIndex := rand32 s.rands } := by
  have hne := side.other_ne
  simp [changeOffer, setAccepted, updateServerStateIndex, sendUpdateTrade, update_of_ne hne.symm]

theorem changeOffer_data_other : (s.changeOffer rand32 side change).data side.other =
    { s.data side.other with accepted := false } := by
  have hne := side.other_ne
  simp [changeOffer, setAccepted, updateServerStateIndex, sendUpdateTrade, update_of_ne hne]

theorem changeOffer_shown_self : ((s.changeOffer rand32 side change).shown side) =
    { gold := (change (s.data side)).money
      proposedEnchantment := (change (s.data side)).spell
      items := fun slot =>
        if slot < TRADE_SLOT_COUNT then
          (((change (s.data side)).items slot).bind (s.inventory side)).map fun item =>
            (item.guid, item.count)
        else none } := by
  have hne := side.other_ne
  simp [changeOffer, setAccepted, updateServerStateIndex, sendUpdateTrade, getItem,
    update_of_ne hne.symm]

theorem changeOffer_shown_other :
    (s.changeOffer rand32 side change).shown side.other = s.shown side.other :=
  update_of_ne side.other_ne _ _

end ChangeOffer

/-- An offer of items that the player had when the trade began, each in one slot. -/
def Offers (start : TradeState) (side : Side) (data : TradeData) : Prop :=
  ∀ slot guid, data.items slot = some guid → slot < TRADE_SLOT_COUNT ∧
    (start.inventory side guid).isSome ∧ ∀ slot', data.items slot' = some guid → slot' = slot

/-- What holds while the trade that began with the state `start` goes on. -/
structure Trading (start s : TradeState) : Prop where
  active : s.active = true
  held : ∀ side guid item, s.inventory side guid = some item →
    item.guid = guid ∧ item.owner = side ∧ (start.inventory side guid).isSome
  money : ∀ side, s.money side ≤ MAX_MONEY_AMOUNT
  offers : ∀ side, Offers start side (s.data side)
  agreed : ∀ side, (s.data side).accepted = true → HasAgreed s.log side

/-- The partner was shown the money and every item that the player still has, and nothing that is
not offered. -/
structure Shows (s : TradeState) (side : Side) : Prop where
  gold : (s.shown side).gold = (s.data side).money
  items : ∀ slot item, s.getItem side slot = some item →
    (s.shown side).items slot = some (item.guid, item.count)
  offered : ∀ slot guid count, (s.shown side).items slot = some (guid, count) →
    (s.data side).items slot = some guid

variable {rand32 : Nat → Nat} {start s t : TradeState} {side : Side}

theorem getItem_eq_some {slot : Nat} {item : TradeItem} : s.getItem side slot = some item ↔
    ∃ guid, (s.data side).items slot = some guid ∧ s.inventory side guid = some item :=
  Option.bind_eq_some_iff

/-- A change of an offer after which each item is in one slot. -/
theorem Trading.changeOffer (h : Trading start s) {change : TradeData → TradeData}
    (hoffers : Offers start side (change (s.data side))) :
    Trading start (s.changeOffer rand32 side change) where
  active := h.active
  held := h.held
  money := h.money
  offers := by
    intro player
    rcases player.eq_or_eq_other side with rfl | rfl
    · rw [changeOffer_data_self]
      exact hoffers
    · rw [changeOffer_data_other]
      exact h.offers side.other
  agreed := by
    intro player haccepted
    rcases player.eq_or_eq_other side with rfl | rfl
    · rw [changeOffer_data_self] at haccepted
      cases haccepted
    · rw [changeOffer_data_other] at haccepted
      cases haccepted

/-- The changed offer is shown. -/
theorem Trading.shows_changeOffer (h : Trading start s) {change : TradeData → TradeData}
    (hoffers : Offers start side (change (s.data side))) :
    Shows (s.changeOffer rand32 side change) side where
  gold := by
    rw [changeOffer_shown_self, changeOffer_data_self]
  items := by
    intro slot item hitem
    obtain ⟨guid, hslot, hheld⟩ := getItem_eq_some.mp hitem
    rw [changeOffer_data_self] at hslot
    rw [changeOffer_inventory] at hheld
    rw [changeOffer_shown_self]
    dsimp only at hslot ⊢
    rw [if_pos (hoffers slot guid hslot).1, hslot, Option.bind_some, hheld, Option.map_some]
  offered := by
    intro slot guid count hshown
    rw [changeOffer_shown_self] at hshown
    rw [changeOffer_data_self]
    dsimp only at hshown ⊢
    split at hshown
    · obtain ⟨item, hitem, hpair⟩ := Option.map_eq_some_iff.mp hshown
      obtain ⟨offered, hslot, hheld⟩ := Option.bind_eq_some_iff.mp hitem
      cases hpair
      rw [hslot, (h.held side offered item hheld).1]
    · cases hshown

/-- The other one stays as it was shown. -/
theorem Shows.changeOffer_other {change : TradeData → TradeData} (h : Shows s side.other) :
    Shows (s.changeOffer rand32 side change) side.other where
  gold := by
    rw [changeOffer_shown_other, changeOffer_data_other]
    exact h.gold
  items := by
    intro slot item hitem
    obtain ⟨guid, hslot, hheld⟩ := getItem_eq_some.mp hitem
    rw [changeOffer_data_other] at hslot
    rw [changeOffer_shown_other]
    exact h.items slot item (getItem_eq_some.mpr ⟨guid, hslot, hheld⟩)
  offered := by
    intro slot guid count hshown
    rw [changeOffer_shown_other] at hshown
    rw [changeOffer_data_other]
    exact h.offered slot guid count hshown

/-- A trade that goes on, with both offers shown. -/
structure Open (start s : TradeState) : Prop where
  trading : Trading start s
  shows : ∀ side, Shows s side

theorem Open.changeOffer (h : Open start s) {change : TradeData → TradeData}
    (hoffers : Offers start side (change (s.data side))) :
    Open start (s.changeOffer rand32 side change) where
  trading := h.trading.changeOffer hoffers
  shows := by
    intro player
    rcases player.eq_or_eq_other side with rfl | rfl
    · exact h.trading.shows_changeOffer hoffers
    · exact (h.shows side.other).changeOffer_other

theorem Open.setSpell (h : Open start s) (spellId : Nat) (castItem : Option Nat) :
    Open start (s.setSpell rand32 side spellId castItem) := by
  unfold TradeState.setSpell
  split
  · exact h
  · exact h.changeOffer (h.trading.offers side)

theorem Open.setMoney (h : Open start s) (money : Nat) :
    Open start (s.setMoney rand32 side money) := by
  unfold TradeState.setMoney
  split
  · exact h
  · split
    · exact h
    · exact h.changeOffer (h.trading.offers side)

/-- The items of an offer after one slot was changed. -/
theorem Offers.update {data : TradeData} (h : Offers start side data) {slot : Nat}
    {itemGuid : Option Nat} (hnew : ∀ guid, itemGuid = some guid → slot < TRADE_SLOT_COUNT ∧
      (start.inventory side guid).isSome ∧ ∀ other, data.items other = some guid → other = slot) :
    Offers start side { data with items := update data.items slot itemGuid } := by
  intro a guid ha
  dsimp only at ha ⊢
  by_cases haslot : a = slot
  · rw [haslot, update_self] at ha
    obtain ⟨hslot, hheld, honce⟩ := hnew guid ha
    refine ⟨haslot ▸ hslot, hheld, fun b hb => ?_⟩
    by_cases hbslot : b = slot
    · rw [hbslot, haslot]
    · rw [update_of_ne hbslot] at hb
      rw [haslot]
      exact honce b hb
  · rw [update_of_ne haslot] at ha
    obtain ⟨hslot, hheld, honce⟩ := h a guid ha
    refine ⟨hslot, hheld, fun b hb => ?_⟩
    by_cases hbslot : b = slot
    · rw [hbslot, update_self] at hb
      exact absurd ((hnew guid hb).2.2 a ha) haslot
    · rw [update_of_ne hbslot] at hb
      exact honce b hb

/-- A change of a slot shows the offer again, whatever was shown of it before. -/
theorem Trading.setItem (h : Trading start s) (hother : Shows s side.other) {slot : Nat}
    {itemGuid : Option Nat} {update : Bool} (hself : update = false → Shows s side)
    (hnew : ∀ guid, itemGuid = some guid → slot < TRADE_SLOT_COUNT ∧
      (start.inventory side guid).isSome ∧
      ∀ other, (s.data side).items other = some guid → other = slot) :
    Open start (s.setItem rand32 side slot itemGuid update) := by
  unfold TradeState.setItem
  split
  · next hsame =>
    have hself := hself (by simpa using hsame.2)
    refine ⟨h, fun player => ?_⟩
    rcases player.eq_or_eq_other side with rfl | rfl
    · exact hself
    · exact hother
  · have hoffers := (h.offers side).update hnew
    have hchanged : Open start (s.changeOffer rand32 side fun data =>
        { data with items := Function.update data.items slot itemGuid }) := by
      refine ⟨h.changeOffer hoffers, fun player => ?_⟩
      rcases player.eq_or_eq_other side with rfl | rfl
      · exact h.shows_changeOffer hoffers
      · exact hother.changeOffer_other
    apply Open.setSpell
    split
    · exact hchanged.setSpell 0 none
    · exact hchanged

end TradeState

end TrinityCore.Trading
