import Mathlib.Algebra.BigOperators.Group.Finset.Sigma
import Mathlib.Algebra.Order.BigOperators.Group.List
import Mathlib.Algebra.Order.Ring.Nat
import TrinityCore.Guilds.BankWithdrawals
import TrinityCore.Lib.StateMachine

/-!
# Moves in a guild bank

Every call of `SwapItems` keeps the items of the bank: what is taken from the source is what is
stored at the target, in the room that was reserved for it before anything was taken.
-/

namespace TrinityCore.Guilds

open Function Option

namespace ItemBank

variable {maxStack : Nat → Nat} {s t u : ItemBank} {item : BankItem} {player splitedAmount : Nat}
  {src dest data other : BankMoveItemData}

section Remove

@[simp] theorem removeItem_items : (s.removeItem player data other item splitedAmount).items =
    update s.items (data.container, data.slotId)
      (if splitedAmount ≠ 0 then some { item with count := item.count - splitedAmount }
        else none) := by
  unfold removeItem
  dsimp only
  split
  · rfl
  · rfl

@[simp] theorem removeItem_tabs :
    (s.removeItem player data other item splitedAmount).tabs = s.tabs := by
  unfold removeItem
  dsimp only
  split
  · rfl
  · rfl

@[simp] theorem removeItem_nextItemGuid :
    (s.removeItem player data other item splitedAmount).nextItemGuid = s.nextItemGuid := by
  unfold removeItem
  dsimp only
  split
  · rfl
  · rfl

@[simp] theorem removeItem_moves :
    (s.removeItem player data other item splitedAmount).moves = s.moves := by
  unfold removeItem
  dsimp only
  split
  · rfl
  · rfl

@[simp] theorem removeItem_guild :
    (s.removeItem player data other item splitedAmount).guild =
      s.guild.countMove player data.container other.container := by
  unfold removeItem Guild.countMove
  dsimp only
  split
  · rfl
  · rfl

end Remove

/-- Whether a bank is well stocked depends on its items alone. -/
theorem Stocked.congr (h : Stocked maxStack s) (hitems : t.items = s.items)
    (htabs : t.tabs = s.tabs) (hnext : s.nextItemGuid ≤ t.nextItemGuid) : Stocked maxStack t where
  inside := by
    rw [hitems, htabs]
    exact h.inside
  counts := by
    rw [hitems]
    exact h.counts
  objects := by
    rw [hitems]
    exact h.objects
  known := by
    rw [hitems]
    intro slot item hitem
    exact (h.known slot item hitem).trans_le hnext

theorem Loose.congr (h : Loose maxStack s item) (hitems : t.items = s.items)
    (hnext : s.nextItemGuid ≤ t.nextItemGuid) : Loose maxStack t item where
  count := h.count
  absent := by
    rw [hitems]
    exact h.absent
  known := h.known.trans_le hnext

theorem total_congr (hitems : t.items = s.items) (htabs : t.tabs = s.tabs) (entry : Nat) :
    t.total entry = s.total entry := by
  simp only [total, hitems, htabs]

/-- The bank after the item of a slot, or a part of it, was taken, with the record of the move. -/
def taken (s : ItemBank) (player : Nat) (src dest : BankMoveItemData) (item : BankItem)
    (splitedAmount : Nat) : ItemBank :=
  (s.recordMove player src dest).removeItem player src dest item splitedAmount

/-- All of a stack is taken. -/
theorem Stocked.taken_all (h : Stocked maxStack s) (player : Nat) (dest : BankMoveItemData)
    (hitem : s.items (src.container, src.slotId) = some item) :
    Stocked maxStack (s.taken player src dest item 0) ∧
      Loose maxStack (s.taken player src dest item 0) item ∧
      ∀ entry slot, stackOf entry ((s.taken player src dest item 0).items slot) +
        (if slot = (src.container, src.slotId) ∧ item.entry = entry then item.count else 0) =
          stackOf entry (s.items slot) := by
  have hitems : (s.taken player src dest item 0).items =
      (s.setItem src.container src.slotId none).items := by
    simp [taken, recordMove]
  have htabs : (s.taken player src dest item 0).tabs =
      (s.setItem src.container src.slotId none).tabs := by
    simp [taken, recordMove]
  have hnext : (s.setItem src.container src.slotId none).nextItemGuid ≤
      (s.taken player src dest item 0).nextItemGuid := by
    simp [taken, recordMove]
  obtain ⟨hstocked, hloose⟩ := h.remove hitem
  refine ⟨hstocked.congr hitems htabs hnext, hloose.congr hitems hnext, ?_⟩
  intro entry slot
  rw [hitems, setItem_items]
  by_cases hslot : slot = (src.container, src.slotId)
  · simp [hslot, hitem]
  · simp [hslot]

/-- A part of a stack is taken, as a new object. -/
theorem Stocked.taken_part (h : Stocked maxStack s)
    (hitem : s.items (src.container, src.slotId) = some item) (hpart : splitedAmount ≠ 0)
    (hless : splitedAmount < item.count) :
    let cloned := (s.cloneItem maxStack item splitedAmount).1
    let after := (s.cloneItem maxStack item splitedAmount).2.taken player src dest item splitedAmount
    cloned.count = splitedAmount ∧ Stocked maxStack after ∧ Loose maxStack after cloned ∧
      ∀ entry slot, stackOf entry (after.items slot) +
        (if slot = (src.container, src.slotId) ∧ cloned.entry = entry then cloned.count else 0) =
          stackOf entry (s.items slot) := by
  intro cloned after
  have hcounts := h.counts _ item hitem
  have hcount : cloned.count = splitedAmount := min_eq_left (by omega)
  let rest : BankItem := { item with count := item.count - splitedAmount }
  have hitems : after.items = (s.setItem src.container src.slotId (some rest)).items := by
    simp [after, taken, recordMove, cloneItem, hpart, rest]
  have htabs : after.tabs = (s.setItem src.container src.slotId (some rest)).tabs := by
    simp [after, taken, recordMove, cloneItem]
  have hnext : after.nextItemGuid = s.nextItemGuid + 1 := by
    simp [after, taken, recordMove, cloneItem]
  have hstocked : Stocked maxStack (s.setItem src.container src.slotId (some rest)) := by
    apply h.resize hitem
    omega
  refine ⟨hcount, hstocked.congr hitems htabs ?_, ?_, ?_⟩
  · rw [hnext, setItem_nextItemGuid]
    omega
  · refine ⟨?_, ?_, ?_⟩
    · rw [hcount]
      change 1 ≤ splitedAmount ∧ splitedAmount ≤ maxStack item.entry
      omega
    · intro slot other hother
      rw [hitems] at hother
      exact (hstocked.known slot other hother).ne
    · rw [hnext]
      exact Nat.lt_succ_self s.nextItemGuid
  · intro entry slot
    rw [hitems, setItem_items, hcount]
    by_cases hslot : slot = (src.container, src.slotId)
    · have hentry : cloned.entry = item.entry := rfl
      simp only [hslot, update_self, hitem, stackOf_some, hentry, true_and, rest]
      split <;> omega
    · simp [hslot]

/-- So many of the item in the source slot went to the target tab, where every slot has so many
more of it, the target slot among them. No other stack is different. -/
structure Shifts (src dest : BankMoveItemData) (item : BankItem) (count : Nat) (stored : Nat → Nat)
    (s t : ItemBank) : Prop where
  source : s.items (src.container, src.slotId) = some item
  count_le : count ≤ item.count
  target : 1 ≤ stored dest.slotId
  sum_stored : ∑ slotId ∈ Finset.range GUILD_BANK_MAX_SLOTS, stored slotId = count
  amounts : ∀ entry slot, stackOf entry (t.items slot) +
      (if slot = (src.container, src.slotId) ∧ item.entry = entry then count else 0) =
    stackOf entry (s.items slot) +
      if slot.1 = dest.container ∧ item.entry = entry then stored slot.2 else 0

/-- The bank holds as many items as before. -/
theorem Shifts.total {count : Nat} {stored : Nat → Nat} (h : Shifts src dest item count stored s t)
    (htabs : t.tabs = s.tabs) (hsrc : (src.container, src.slotId) ∈ slots s.tabs)
    (hdest : dest.container < s.tabs) (entry : Nat) : t.total entry = s.total entry := by
  have hsum := Finset.sum_congr (Eq.refl (slots s.tabs)) fun slot _ => h.amounts entry slot
  have htarget : ∑ slot ∈ slots s.tabs,
      (if slot.1 = dest.container ∧ item.entry = entry then stored slot.2 else 0) =
        if item.entry = entry then count else 0 := by
    rw [slots, Finset.sum_product, Finset.sum_eq_single_of_mem _ (Finset.mem_range.mpr hdest)]
    · simp only [true_and]
      split
      · exact h.sum_stored
      · simp
    · intro tabId _ hne
      simp [hne]
  have hsource : ∑ slot ∈ slots s.tabs,
      (if slot = (src.container, src.slotId) ∧ item.entry = entry then count else 0) =
        if item.entry = entry then count else 0 := by
    rw [Finset.sum_eq_single_of_mem _ hsrc]
    · simp
    · intro slot _ hne
      simp [hne]
  rw [Finset.sum_add_distrib, Finset.sum_add_distrib, htarget, hsource] at hsum
  unfold ItemBank.total
  rw [htabs]
  omega

/-- An item of the player was moved from one tab to another one, or to a slot of the same. -/
structure MovesItem (maxStack : Nat → Nat) (player : Nat) (src dest : BankMoveItemData)
    (s t : ItemBank) : Prop where
  stocked : Stocked maxStack t
  shifts : ∃ item count stored, Shifts src dest item count stored s t
  total : ∀ entry, t.total entry = s.total entry
  tabs : t.tabs = s.tabs
  moves : t.moves = s.moves ++ [⟨player, src.container, dest.container⟩]
  guild : t.guild = s.guild.countMove player src.container dest.container

/-- What was taken from the source is stored at the positions that were reserved for it. -/
theorem MovesItem.of_reserved {taken : ItemBank} {positions : List ItemPosCount}
    {srcItem : BankItem} (hstocked : Stocked maxStack taken) (hloose : Loose maxStack taken item)
    (hsource : s.items (src.container, src.slotId) = some srcItem)
    (hentry : srcItem.entry = item.entry) (hcount : item.count ≤ srcItem.count)
    (hsrc : (src.container, src.slotId) ∈ slots s.tabs)
    (hamounts : ∀ entry slot, stackOf entry (taken.items slot) +
      (if slot = (src.container, src.slotId) ∧ item.entry = entry then item.count else 0) =
        stackOf entry (s.items slot))
    (htab : dest.container < s.tabs) (htarget : ∃ pos ∈ positions, pos.pos = dest.slotId)
    (htabs : taken.tabs = s.tabs)
    (hmoves : taken.moves = s.moves ++ [⟨player, src.container, dest.container⟩])
    (hguild : taken.guild = s.guild.countMove player src.container dest.container)
    (hreserved : Reserved maxStack (taken.getItem dest.container) item positions 0) :
    MovesItem maxStack player src dest s (storeItem maxStack dest.container item positions taken) := by
  have hstores := hstocked.storeItem hloose (by rwa [htabs]) hreserved
  have hshifts : Shifts src dest srcItem item.count (storedAt positions) s
      (storeItem maxStack dest.container item positions taken) := by
    refine ⟨hsource, hcount, ?_, (sum_storedAt hreserved.inTab).trans hreserved.count, ?_⟩
    · obtain ⟨pos, hpos, hslot⟩ := htarget
      have hle := List.single_le_sum (fun _ _ => Nat.zero_le _) _ (List.mem_map_of_mem
        (f := fun pos => if pos.pos = dest.slotId then pos.count else 0) hpos)
      rw [if_pos hslot] at hle
      exact (hreserved.count_pos pos hpos).trans hle
    · intro entry slot
      rw [hstores.amounts, ← hamounts, hentry]
      omega
  have htabs' := hstores.tabs.trans htabs
  exact ⟨hstores.stocked, ⟨_, _, _, hshifts⟩, hshifts.total htabs' hsrc htab, htabs',
    hstores.moves.trans hmoves, hstores.guild.trans hguild⟩

theorem getItem_congr {tabId slotId tabId' slotId' : Nat} (h : (tabId, slotId) = (tabId', slotId')) :
    s.getItem tabId slotId = s.getItem tabId' slotId' := by
  rw [(Prod.mk.inj h).1, (Prod.mk.inj h).2]

/-- A move takes from no other slot than the source. -/
theorem getItem_taken_of_ne {tabId slotId : Nat}
    (hne : (tabId, slotId) ≠ (src.container, src.slotId)) :
    (s.taken player src dest item splitedAmount).getItem tabId slotId = s.getItem tabId slotId := by
  simp [getItem, taken, recordMove, update_of_ne hne]

/-- The source itself, when all of the item is taken. -/
theorem getItem_taken_all : (s.taken player src dest item 0).getItem src.container src.slotId =
    none := by
  simp [getItem, taken, recordMove]

/-- An item that is moved as a whole. Its own slot counts as free when room is reserved, which it
is once the item was taken. -/
theorem Stocked.moveItem_all (h : Stocked maxStack s)
    (hitem : s.getItem src.container src.slotId = some item)
    (hslot : dest.slotId < GUILD_BANK_MAX_SLOTS)
    (hmove : s.moveItem maxStack player src dest item item 0 = some t) :
    MovesItem maxStack player src dest s t := by
  obtain ⟨hsrc, hitems⟩ := getItem_eq_some.mp hitem
  obtain ⟨positions, hstore, rfl⟩ := map_eq_some_iff.mp hmove
  have hcounts := h.counts _ item hitems
  obtain ⟨hreserved, htarget⟩ := canStore_reserved hcounts.1 hcounts.2 hslot hstore
  obtain ⟨hstocked, hloose, hamounts⟩ := h.taken_all player dest hitems
  apply MovesItem.of_reserved hstocked hloose hitems rfl le_rfl (h.inside _ item hitems) hamounts
    (canStore_tab hstore) htarget
  · simp [taken, recordMove]
  · simp [taken, recordMove]
  · simp [taken, recordMove]
  · apply hreserved.of_less
    · intro slotId hnone
      by_cases hself : (dest.container, slotId) = (src.container, src.slotId)
      · rw [getItem_congr hself, getItem_taken_all]
      · rw [getItem_taken_of_ne hself]
        cases hother : s.getItem dest.container slotId with
        | none => rfl
        | some other =>
          have hguid : other.guid = item.guid := by simpa [otherItem, hother] using hnone
          have hobject := h.objects _ _ other item (getItem_eq_some.mp hother).2 hitems hguid
          exact absurd hobject hself
    · intro slotId stack hstack
      obtain ⟨hother, hguid⟩ := filter_eq_some_iff.mp hstack
      have hguid : stack.guid ≠ item.guid := by simpa using hguid
      have hself : (dest.container, slotId) ≠ (src.container, src.slotId) := by
        intro hself
        rw [getItem_congr hself, hitem] at hother
        cases hother
        exact hguid rfl
      exact ⟨stack, by rw [getItem_taken_of_ne hself, hother], rfl, le_rfl⟩

/-- A part of an item that is moved. The stack it is taken from keeps at least its room. -/
theorem Stocked.moveItem_part (h : Stocked maxStack s)
    (hitem : s.getItem src.container src.slotId = some item)
    (hslot : dest.slotId < GUILD_BANK_MAX_SLOTS) (hpart : splitedAmount ≠ 0)
    (hless : splitedAmount < item.count)
    (hmove : (s.cloneItem maxStack item splitedAmount).2.moveItem maxStack player src dest item
      (s.cloneItem maxStack item splitedAmount).1 splitedAmount = some t) :
    MovesItem maxStack player src dest s t := by
  obtain ⟨hsrc, hitems⟩ := getItem_eq_some.mp hitem
  obtain ⟨positions, hstore, rfl⟩ := map_eq_some_iff.mp hmove
  obtain ⟨hcount, hstocked, hloose, hamounts⟩ := h.taken_part hitems hpart hless
  obtain ⟨hreserved, htarget⟩ := canStore_reserved hloose.count.1 hloose.count.2 hslot hstore
  apply MovesItem.of_reserved hstocked hloose hitems rfl (hcount.trans_le hless.le)
    (h.inside _ item hitems) hamounts (canStore_tab hstore) htarget
  · simp [taken, recordMove, cloneItem]
  · simp [taken, recordMove, cloneItem]
  · simp [taken, recordMove, cloneItem]
  · apply hreserved.of_less
    · intro slotId hnone
      have hfree : s.getItem dest.container slotId = none := by
        cases hother : s.getItem dest.container slotId with
        | none => rfl
        | some other =>
          have hguid : ¬decide (other.guid ≠ s.nextItemGuid) = true :=
            filter_eq_none_iff.mp hnone other hother
          have hguid : other.guid = s.nextItemGuid := by simpa using hguid
          have hknown := h.known _ other (getItem_eq_some.mp hother).2
          omega
      have hself : (dest.container, slotId) ≠ (src.container, src.slotId) := by
        intro hself
        rw [getItem_congr hself, hitem] at hfree
        cases hfree
      rw [getItem_taken_of_ne hself]
      exact hfree
    · intro slotId stack hstack
      have hother : s.getItem dest.container slotId = some stack :=
        (filter_eq_some_iff.mp hstack).1
      by_cases hself : (dest.container, slotId) = (src.container, src.slotId)
      · rw [getItem_congr hself, hitem] at hother
        cases hother
        rw [getItem_congr hself]
        refine ⟨{ item with count := item.count - splitedAmount }, ?_, rfl, Nat.sub_le _ _⟩
        simp [getItem, taken, recordMove, cloneItem, hpart, hsrc]
      · exact ⟨stack, by rw [getItem_taken_of_ne hself]; exact hother, rfl, le_rfl⟩

/-- Two items of the player changed places. -/
structure ExchangesItems (maxStack : Nat → Nat) (player : Nat) (src dest : BankMoveItemData)
    (s t : ItemBank) : Prop where
  stocked : Stocked maxStack t
  exchanged : ∃ srcItem destItem, s.items (src.container, src.slotId) = some srcItem ∧
    s.items (dest.container, dest.slotId) = some destItem ∧
    t.items = update (update s.items (src.container, src.slotId) (some destItem))
      (dest.container, dest.slotId) (some srcItem)
  total : ∀ entry, t.total entry = s.total entry
  tabs : t.tabs = s.tabs
  moves : t.moves = s.moves ++ [⟨player, src.container, dest.container⟩] ++
    [⟨player, dest.container, src.container⟩]
  guild : t.guild = (s.guild.countMove player src.container dest.container).countMove player
    dest.container src.container

theorem recordMove_removeItem (source target : BankMoveItemData) :
    (s.removeItem player data other item splitedAmount).recordMove player source target =
      (s.recordMove player source target).removeItem player data other item splitedAmount := by
  unfold removeItem
  dsimp only
  split
  · rfl
  · rfl

/-- An item that is in no slot stays so when another one is taken. -/
theorem Loose.taken_all (h : Loose maxStack s item) {srcItem : BankItem} :
    Loose maxStack (s.taken player src dest srcItem 0) item where
  count := h.count
  absent := by
    intro slot other hother
    by_cases hslot : slot = (src.container, src.slotId)
    · simp [taken, recordMove, hslot] at hother
    · rw [taken, removeItem_items, update_of_ne hslot] at hother
      exact h.absent slot other hother
  known := by
    rw [taken, removeItem_nextItemGuid]
    exact h.known

/-- Two items that change places. Both slots are free once both items were taken. -/
theorem Stocked.exchangeItems (h : Stocked maxStack s) {srcItem destItem : BankItem}
    (hsrc : s.getItem src.container src.slotId = some srcItem)
    (hdest : s.getItem dest.container dest.slotId = some destItem)
    (hne : (dest.container, dest.slotId) ≠ (src.container, src.slotId))
    (hmove : s.exchangeItems maxStack player src dest srcItem destItem = some t) :
    ExchangesItems maxStack player src dest s t := by
  obtain ⟨hsrcSlot, hsrcItem⟩ := getItem_eq_some.mp hsrc
  obtain ⟨hdestSlot, hdestItem⟩ := getItem_eq_some.mp hdest
  unfold ItemBank.exchangeItems at hmove
  split at hmove
  · next destPositions srcPositions hdestStore hsrcStore =>
    have hsrcCount := h.counts _ srcItem hsrcItem
    have hdestCount := h.counts _ destItem hdestItem
    rw [canStore_swap hsrcCount.2 hdestStore, canStore_swap hdestCount.2 hsrcStore] at hmove
    dsimp only at hmove
    rw [← recordMove_removeItem, some.injEq] at hmove
    change ItemBank.storeItem maxStack src.container destItem [⟨src.slotId, destItem.count⟩]
      (ItemBank.storeItem maxStack dest.container srcItem [⟨dest.slotId, srcItem.count⟩]
        ((s.taken player src dest srcItem 0).taken player dest src destItem 0)) = t at hmove
    -- both items are taken
    obtain ⟨hstocked, hsrcLoose, -⟩ := h.taken_all player dest hsrcItem
    have hdestThere : (s.taken player src dest srcItem 0).items (dest.container, dest.slotId) =
        some destItem := by
      rw [taken, removeItem_items, update_of_ne hne]
      exact hdestItem
    obtain ⟨hstocked, hdestLoose, -⟩ := hstocked.taken_all player src hdestThere
    have hsrcLoose : Loose maxStack
        ((s.taken player src dest srcItem 0).taken player dest src destItem 0) srcItem :=
      hsrcLoose.taken_all
    have hguids : srcItem.guid ≠ destItem.guid := by
      intro hguid
      exact hne (h.objects _ _ destItem srcItem hdestItem hsrcItem hguid.symm)
    -- and stored in the slot of the other one
    have hdestFree : FreeAt maxStack
        (((s.taken player src dest srcItem 0).taken player dest src destItem 0).getItem
          dest.container) srcItem ⟨dest.slotId, srcItem.count⟩ :=
      ⟨getItem_taken_all, hsrcCount⟩
    have hdestMem : (dest.container, dest.slotId) ∈ slots
        ((s.taken player src dest srcItem 0).taken player dest src destItem 0).tabs := by
      simpa [mem_slots, taken, recordMove] using hdestSlot
    have hsrcMem : (src.container, src.slotId) ∈ slots
        ((s.taken player src dest srcItem 0).taken player dest src destItem 0).tabs := by
      simpa [mem_slots, taken, recordMove] using hsrcSlot
    have hstored := hstocked.store_free hsrcLoose hdestMem hdestFree
    rw [storeItem_free hdestFree] at hmove hstored
    dsimp only at hmove hstored
    have hsrcFree : FreeAt maxStack
        ((((s.taken player src dest srcItem 0).taken player dest src destItem 0).setItem
          dest.container dest.slotId (some srcItem)).getItem src.container) destItem
        ⟨src.slotId, destItem.count⟩ := by
      refine ⟨?_, hdestCount⟩
      rw [getItem_setItem_of_ne _ hne.symm, getItem_taken_of_ne hne.symm]
      exact getItem_taken_all
    have hsrcStored : Stores maxStack destItem src.container [⟨src.slotId, destItem.count⟩]
        (((s.taken player src dest srcItem 0).taken player dest src destItem 0).setItem
          dest.container dest.slotId (some srcItem)) t := by
      rw [← hmove]
      apply hstored.stocked.store_free (hdestLoose.put hguids) _ hsrcFree
      exact hsrcMem
    rw [storeItem_free hsrcFree] at hmove
    have hitems : t.items = ((s.setItem src.container src.slotId (some destItem)).setItem
        dest.container dest.slotId (some srcItem)).items := by
      rw [← hmove]
      funext slot
      by_cases hslot : slot = (src.container, src.slotId)
      · simp [hslot, taken, recordMove, hne.symm]
      · by_cases hslot' : slot = (dest.container, dest.slotId)
        · simp [hslot', taken, recordMove, hne]
        · simp [taken, recordMove, hslot, hslot']
    have htabs : t.tabs = s.tabs := by
      rw [hsrcStored.tabs, hstored.tabs]
      simp [taken, recordMove]
    refine ⟨hsrcStored.stocked, ⟨srcItem, destItem, hsrcItem, hdestItem, hitems⟩, ?_, htabs, ?_, ?_⟩
    · intro entry
      have hfirst := total_setItem (h.inside _ srcItem hsrcItem) (some destItem) entry
      have hthen := total_setItem (s := s.setItem src.container src.slotId (some destItem))
        (h.inside _ destItem hdestItem) (some srcItem) entry
      rw [setItem_items, update_of_ne hne, hdestItem] at hthen
      rw [hsrcItem] at hfirst
      rw [total_congr hitems htabs]
      omega
    · rw [hsrcStored.moves, hstored.moves]
      simp [taken, recordMove]
    · rw [hsrcStored.guild, hstored.guild]
      simp [taken, recordMove]
  · cases hmove

end ItemBank

end TrinityCore.Guilds
