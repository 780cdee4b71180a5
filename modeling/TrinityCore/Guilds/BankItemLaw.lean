import TrinityCore.Guilds.BankMoves

/-!
# The law of guild bank items

A run of `SwapItems` calls neither makes nor loses items, whatever slots, amounts, rights and limits
it meets.
-/

namespace TrinityCore.Guilds

open Function List Option

namespace ItemBank

variable {maxStack : Nat → Nat} {s t u : ItemBank} {player : Nat}

/-- Nothing was moved. A clone may have been made for it. -/
structure Refuses (s t : ItemBank) : Prop where
  items : t.items = s.items
  tabs : t.tabs = s.tabs
  guild : t.guild = s.guild
  moves : t.moves = s.moves
  nextItemGuid : s.nextItemGuid ≤ t.nextItemGuid

theorem Refuses.refl : Refuses s s := ⟨rfl, rfl, rfl, rfl, le_rfl⟩

/-- What a call does: an item is moved to where there is room, or two items change places, or
nothing changes. What leaves a tab for another one, its player may withdraw. -/
theorem moveItems_cases (h : Stocked maxStack s) (src dest : BankMoveItemData)
    (hslot : dest.slotId < GUILD_BANK_MAX_SLOTS)
    (hne : (dest.container, dest.slotId) ≠ (src.container, src.slotId)) (splitedAmount : Nat) :
    let t := s.moveItems maxStack player src dest splitedAmount
    Refuses s t ∨
      (MovesItem maxStack player src dest s t ∧
        (dest.container = src.container ∨ s.MayWithdraw player src.container)) ∨
      ExchangesItems maxStack player src dest s t ∧
        (dest.container = src.container ∨ s.MayWithdraw player src.container) ∧
        (src.container = dest.container ∨ s.MayWithdraw player dest.container) := by
  intro t
  cases hsrc : s.getItem src.container src.slotId with
  | none =>
    left
    simp [t, moveItems, hsrc, Refuses.refl]
  | some srcItem =>
    simp only [t, moveItems, hsrc]
    split
    · exact .inl Refuses.refl
    · next hcount =>
      have hone := (h.counts _ srcItem (getItem_eq_some.mp hsrc).2).1
      have hless : (if splitedAmount = srcItem.count then 0 else splitedAmount) <
          srcItem.count := by
        split
        · omega
        · omega
      generalize (if splitedAmount = srcItem.count then 0 else splitedAmount) = part at hless
      split
      · exact .inl Refuses.refl
      · split
        · exact .inl Refuses.refl
        · next hwithdraw =>
          have hrights := hasWithdrawRights_iff.mp (by simpa using hwithdraw)
          split
          · next hpart =>
            -- a part is split off
            cases hmove : (s.cloneItem maxStack srcItem part).2.moveItem maxStack player src dest
              srcItem (s.cloneItem maxStack srcItem part).1 part with
            | none =>
              left
              exact ⟨rfl, rfl, rfl, rfl, Nat.le_succ _⟩
            | some moved =>
              right; left
              exact ⟨h.moveItem_part hsrc hslot hpart hless hmove, hrights⟩
          · -- all of it is moved
            cases hmove : s.moveItem maxStack player src dest srcItem srcItem 0 with
            | some moved =>
              right; left
              exact ⟨h.moveItem_all hsrc hslot hmove, hrights⟩
            | none =>
              -- or it changes places with the item in the way
              cases hdest : s.getItem dest.container dest.slotId with
              | none => exact .inl Refuses.refl
              | some destItem =>
                dsimp only
                split
                · exact .inl Refuses.refl
                · split
                  · exact .inl Refuses.refl
                  · next hback =>
                    have hback := hasWithdrawRights_iff.mp (by simpa using hback)
                    cases hexchange : s.exchangeItems maxStack player src dest srcItem destItem with
                    | none => exact .inl Refuses.refl
                    | some moved =>
                      right; right
                      exact ⟨h.exchangeItems hsrc hdest hne hexchange, hrights, hback⟩

/-- A bank as a run finds it. -/
structure Opens (maxStack : Nat → Nat) (s : ItemBank) : Prop where
  stocked : Stocked maxStack s
  counted : Counted s
  moves : s.moves = []

/-- What a run keeps of the bank `s` it started with. -/
structure Kept (maxStack : Nat → Nat) (s t : ItemBank) : Prop where
  stocked : Stocked maxStack t
  total : ∀ entry, t.total entry = s.total entry
  withdrawn : Withdrawn s t

theorem Opens.kept (h : Opens maxStack s) : Kept maxStack s s where
  stocked := h.stocked
  total := fun _ => rfl
  withdrawn := by
    refine ⟨rfl, rfl, ?_, ?_⟩
    · intro guid
      rw [h.moves]
      cases hmember : s.guild.getMember guid with
      | none => rfl
      | some member =>
        rw [map_some, some.injEq]
        have hcounters : member.bankWithdraw.mapIdx (fun _ value => (value + 0) % 2 ^ 32) =
            member.bankWithdraw := by
          apply ext_getElem?
          intro tabId
          rw [getElem?_mapIdx]
          cases hvalue : member.bankWithdraw[tabId]? with
          | none => rfl
          | some value =>
            have hfits := ((h.counted.counters member (Guild.getMember_mem hmember)).2 tabId).1
            simp only [Member.getBankTabWithdrawValue, hvalue, getD_some] at hfits
            rw [map_some, add_zero, Nat.mod_eq_of_lt hfits]
        simp only [Member.afterMoves, departures_nil, hcounters]
    · intro guid member _ _ tabId _
      rw [h.moves]
      exact .inl rfl

/-- A call that changes something keeps the items and counts every item that leaves a tab. -/
theorem Kept.moveItems (h : Kept maxStack s t) (hcounted : Counted s)
    {src dest : BankMoveItemData} (hsrc : src.container < s.tabs) (hdest : dest.container < s.tabs)
    (hslot : dest.slotId < GUILD_BANK_MAX_SLOTS)
    (hne : (dest.container, dest.slotId) ≠ (src.container, src.slotId)) (splitedAmount : Nat) :
    Kept maxStack s (t.moveItems maxStack player src dest splitedAmount) := by
  rcases moveItems_cases h.stocked src dest hslot hne splitedAmount with
    hrefused | ⟨hmoved, hrights⟩ | ⟨hmoved, hrights, hback⟩
  · exact ⟨h.stocked.congr hrefused.items hrefused.tabs hrefused.nextItemGuid,
      fun entry => (total_congr hrefused.items hrefused.tabs entry).trans (h.total entry),
      h.withdrawn.congr hrefused.tabs hrefused.guild hrefused.moves⟩
  · exact ⟨hmoved.stocked, fun entry => (hmoved.total entry).trans (h.total entry),
      h.withdrawn.move hcounted hsrc hmoved.tabs hmoved.moves hmoved.guild hrights⟩
  · refine ⟨hmoved.stocked, fun entry => (hmoved.total entry).trans (h.total entry), ?_⟩
    -- the two moves are counted one after the other
    let first : ItemBank :=
      { t with
        guild := t.guild.countMove player src.container dest.container
        moves := t.moves ++ [⟨player, src.container, dest.container⟩] }
    have hfirst : Withdrawn s first := h.withdrawn.move hcounted hsrc rfl rfl rfl hrights
    apply hfirst.move hcounted hdest hmoved.tabs hmoved.moves hmoved.guild
    by_cases hsame : src.container = dest.container
    · exact .inl hsame
    · have hback := hback.resolve_left hsame
      exact .inr (hback.of_countMove (Ne.symm hsame) rfl rfl)

theorem Kept.swapItems (h : Kept maxStack s t) (hcounted : Counted s) (call : SwapCall) :
    Kept maxStack s (t.swapItems maxStack call) := by
  unfold ItemBank.swapItems
  split
  · exact h
  · next hinside =>
    push Not at hinside
    have htabs := h.withdrawn.tabs
    split
    · exact h
    · next hother =>
      apply h.moveItems hcounted
      · dsimp only
        omega
      · dsimp only
        omega
      · exact hinside.2.2.2
      · intro heq
        obtain ⟨htab, hslot⟩ := Prod.mk.inj heq
        exact hother ⟨htab.symm, hslot.symm⟩

/-- What a call does: nothing, or it moves an item, or exchanges two. -/
def Outcome (maxStack : Nat → Nat) (call : SwapCall) (s t : ItemBank) : Prop :=
  Refuses s t ∨
    MovesItem maxStack call.player ⟨call.tabId, call.slotId⟩ ⟨call.destTabId, call.destSlotId⟩ s t ∨
    ExchangesItems maxStack call.player ⟨call.tabId, call.slotId⟩
      ⟨call.destTabId, call.destSlotId⟩ s t

theorem Stocked.outcome (h : Stocked maxStack s) (call : SwapCall) :
    Outcome maxStack call s (s.swapItems maxStack call) := by
  unfold ItemBank.swapItems
  split
  · exact .inl Refuses.refl
  next hinside =>
    push Not at hinside
    split
    · exact .inl Refuses.refl
    next hother =>
      have hne : (call.destTabId, call.destSlotId) ≠ (call.tabId, call.slotId) := by
        intro heq
        obtain ⟨htab, hslot⟩ := Prod.mk.inj heq
        exact hother ⟨htab.symm, hslot.symm⟩
      exact (moveItems_cases h ⟨call.tabId, call.slotId⟩ ⟨call.destTabId, call.destSlotId⟩
        hinside.2.2.2 hne call.splitedAmount).imp_right (Or.imp And.left And.left)

open StateMachine in
theorem Opens.run (h : Opens maxStack s) (calls : List SwapCall) :
    Kept maxStack s (run (ItemBank.swapItems maxStack) s calls) :=
  run_invariant h.kept (fun _ call hkept => hkept.swapItems h.counted call) calls

/-- In every run, the bank holds as many items of each entry as before, every stack is between one
and its maximum, and no item object is in two slots. Every call changes nothing, or moves so many of
an item from the source slot to slots of the target tab, or exchanges the items of two slots, and
records just that. A member's counter of a tab grows with the items he has moved from the tab to
another one, up to the daily limit of his rank, which only the leader's does not have. -/
theorem swapItems_run (maxStack : Nat → Nat) (s : ItemBank) (hopens : Opens maxStack s)
    (calls : List SwapCall) :
    let t := StateMachine.run (ItemBank.swapItems maxStack) s calls
    (∀ entry, t.total entry = s.total entry) ∧
    (∀ slot item, t.items slot = some item → 1 ≤ item.count ∧ item.count ≤ maxStack item.entry) ∧
    (∀ slot slot' item item', t.items slot = some item → t.items slot' = some item' →
      item.guid = item'.guid → slot = slot') ∧
    (∀ call, Outcome maxStack call t (t.swapItems maxStack call)) ∧
    ∀ guid member, s.guild.getMember guid = some member →
      ∃ now, t.guild.getMember guid = some now ∧ now.rankId = member.rankId ∧
        ∀ tabId < s.tabs,
          now.getBankTabWithdrawValue tabId =
            (member.getBankTabWithdrawValue tabId + departures t.moves guid tabId) % 2 ^ 32 ∧
          (member.rankId ≠ GR_GUILDMASTER →
            now.getBankTabWithdrawValue tabId =
              member.getBankTabWithdrawValue tabId + departures t.moves guid tabId ∧
            (departures t.moves guid tabId = 0 ∨
              now.getBankTabWithdrawValue tabId ≤ s.slotLimit member.rankId tabId)) := by
  intro t
  have hkept : Kept maxStack s t := hopens.run calls
  refine ⟨hkept.total, hkept.stocked.counts, hkept.stocked.objects, hkept.stocked.outcome, ?_⟩
  · intro guid member hmember
    have hguid := Guild.getMember_guid hmember
    obtain ⟨hlength, hcounters⟩ := hopens.counted.counters member (Guild.getMember_mem hmember)
    refine ⟨member.afterMoves t.moves, ?_, rfl, ?_⟩
    · rw [hkept.withdrawn.members, hmember, Option.map_some]
    · intro tabId htab
      have htabs := hopens.counted.tabs
      have hvalue : (member.afterMoves t.moves).getBankTabWithdrawValue tabId =
          (member.getBankTabWithdrawValue tabId + departures t.moves guid tabId) % 2 ^ 32 := by
        rw [Member.afterMoves_withdrawValue (by omega), hguid]
      refine ⟨hvalue, fun hrank => ?_⟩
      have hfits := (hcounters tabId).1
      have hlimit : s.slotLimit member.rankId tabId < 2 ^ 32 := UInt32.toNat_lt _
      have hwithin := hkept.withdrawn.limits guid member hmember hrank tabId htab
      rw [hvalue, Nat.mod_eq_of_lt (by omega)]
      exact ⟨rfl, hwithin⟩

/-- Two tabs and two stacks of one entry, and a member who may take one item a day out of the first
tab. -/
def twoStacks : ItemBank where
  guild :=
    { id := 1
      ranks :=
        [{ rankId := 0, name := "Master", rights := GR_RIGHT_ALL, bankMoneyPerDay := 0 },
          { rankId := 1, name := "Member", rights := GR_RIGHT_EMPTY, bankMoneyPerDay := 0
            bankTabRightsAndSlots := replicate GUILD_BANK_MAX_TABS ⟨0, 3, 1⟩ }]
      members := [{ guid := 1, name := "A", rankId := 0 }, { guid := 2, name := "B", rankId := 1 }]
      leaderGuid := 1
      guildIds := fun _ => 1 }
  tabs := 2
  items := update (update (fun _ => none) (0, 0) (some ⟨1, 7, 5, false⟩)) (0, 1)
    (some ⟨2, 7, 18, false⟩)
  nextItemGuid := 3
  moves := []

theorem twoStacks_opens : Opens (fun _ => 20) twoStacks := by
  have hitems : ∀ slot item, twoStacks.items slot = some item →
      slot = (0, 0) ∧ item = ⟨1, 7, 5, false⟩ ∨ slot = (0, 1) ∧ item = ⟨2, 7, 18, false⟩ := by
    intro slot item hitem
    by_cases hsecond : slot = (0, 1)
    · simp [twoStacks, hsecond] at hitem
      exact .inr ⟨hsecond, hitem.symm⟩
    · by_cases hfirst : slot = (0, 0)
      · simp [twoStacks, hfirst] at hitem
        exact .inl ⟨hfirst, hitem.symm⟩
      · simp [twoStacks, update_of_ne hsecond, update_of_ne hfirst] at hitem
  refine ⟨⟨?_, ?_, ?_, ?_⟩, ⟨by decide, ?_⟩, rfl⟩
  · intro slot item hitem
    rcases hitems slot item hitem with ⟨rfl, rfl⟩ | ⟨rfl, rfl⟩ <;> decide
  · intro slot item hitem
    rcases hitems slot item hitem with ⟨rfl, rfl⟩ | ⟨rfl, rfl⟩ <;> decide
  · intro slot slot' item item' hitem hitem' hguid
    rcases hitems slot item hitem with ⟨rfl, rfl⟩ | ⟨rfl, rfl⟩ <;>
      rcases hitems slot' item' hitem' with ⟨rfl, rfl⟩ | ⟨rfl, rfl⟩ <;>
      first
      | rfl
      | cases hguid
  · intro slot item hitem
    rcases hitems slot item hitem with ⟨rfl, rfl⟩ | ⟨rfl, rfl⟩ <;> decide
  · have hzero : ∀ tabId : Nat, (replicate GUILD_BANK_MAX_TABS 0)[tabId]?.getD 0 = 0 := by
      intro tabId
      rw [getElem?_replicate]
      split <;> rfl
    intro member hmember
    simp only [twoStacks, mem_cons, not_mem_nil, or_false] at hmember
    rcases hmember with rfl | rfl <;>
      exact ⟨rfl, fun tabId => by simp [Member.getBankTabWithdrawValue, hzero]⟩

/-- A stack is added to another one, and three of it go to the second tab; more may not. -/
theorem swapItems_run_twoStacks :
    let t := StateMachine.run (ItemBank.swapItems fun _ => 20) twoStacks
      [⟨2, 0, 0, 0, 1, 0⟩, ⟨2, 0, 1, 1, 5, 3⟩]
    (t.items (0, 1) = some ⟨2, 7, 17, false⟩ ∧ t.items (1, 5) = some ⟨3, 7, 3, false⟩ ∧
      departures t.moves 2 0 = 1) ∧
    t.total 7 = twoStacks.total 7 ∧
      Outcome (fun _ => 20) ⟨2, 0, 0, 1, 5, 0⟩ t (t.swapItems (fun _ => 20) ⟨2, 0, 0, 1, 5, 0⟩) := by
  intro t
  have hrun := swapItems_run (fun _ => 20) twoStacks twoStacks_opens
    [⟨2, 0, 0, 0, 1, 0⟩, ⟨2, 0, 1, 1, 5, 3⟩]
  exact ⟨by decide +kernel, hrun.1 7, hrun.2.2.2.1 _⟩

end ItemBank

end TrinityCore.Guilds
