import TrinityCore.Guilds.BankItems

/-!
# Room in a bank tab

What `CanStore` finds for an item: room in stacks of the same entry, each used once, and at most one
slot without an item, which is the last one. Together the positions take the whole item.
-/

namespace TrinityCore.Guilds

open List Option

/-- The slot has a stack of the item's entry with room for so many more. -/
def MergesAt (maxStack : Nat → Nat) (slots : Nat → Option BankItem) (item : BankItem)
    (pos : ItemPosCount) : Prop :=
  1 ≤ pos.count ∧ ∃ dest, slots pos.pos = some dest ∧ dest.entry = item.entry ∧
    dest.count + pos.count ≤ maxStack item.entry

/-- The slot has no item, and so many of the item are one stack. -/
def FreeAt (maxStack : Nat → Nat) (slots : Nat → Option BankItem) (item : BankItem)
    (pos : ItemPosCount) : Prop :=
  slots pos.pos = none ∧ 1 ≤ pos.count ∧ pos.count ≤ maxStack item.entry

/-- Reserved positions: stacks that have room, and then at most one free slot. -/
structure Reserved (maxStack : Nat → Nat) (slots : Nat → Option BankItem) (item : BankItem)
    (positions : List ItemPosCount) (left : Nat) : Prop where
  once : (positions.map ItemPosCount.pos).Nodup
  inTab : ∀ pos ∈ positions, pos.pos < GUILD_BANK_MAX_SLOTS
  count : (positions.map ItemPosCount.count).sum + left = item.count
  room : ∃ merges free, positions = merges ++ free ∧
    (∀ pos ∈ merges, MergesAt maxStack slots item pos) ∧
    (free = [] ∨ left = 0 ∧ ∃ pos, free = [pos] ∧ FreeAt maxStack slots item pos)

namespace Reserved

variable {maxStack : Nat → Nat} {slots : Nat → Option BankItem} {item : BankItem}
  {positions : List ItemPosCount} {left slotId : Nat}

theorem nil : Reserved maxStack slots item [] item.count where
  once := nodup_nil
  inTab := by simp
  count := by simp
  room := ⟨[], [], rfl, by simp, Or.inl rfl⟩

section

variable (h : Reserved maxStack slots item positions left)
include h

/-- Positions stay reserved where the stacks have lost items. -/
theorem of_less {less : Nat → Option BankItem}
    (hnone : ∀ slotId, slots slotId = none → less slotId = none)
    (hsome : ∀ slotId dest, slots slotId = some dest →
      ∃ rest, less slotId = some rest ∧ rest.entry = dest.entry ∧ rest.count ≤ dest.count) :
    Reserved maxStack less item positions left where
  once := h.once
  inTab := h.inTab
  count := h.count
  room := by
    obtain ⟨merges, free, hsplit, hmerges, hfree⟩ := h.room
    refine ⟨merges, free, hsplit, ?_, ?_⟩
    · intro pos hpos
      obtain ⟨hcount, dest, hdest, hentry, hfits⟩ := hmerges pos hpos
      obtain ⟨rest, hrest, hsame, hle⟩ := hsome pos.pos dest hdest
      exact ⟨hcount, rest, hrest, hsame.trans hentry, by omega⟩
    · rcases hfree with hfree | ⟨hleft, pos, hfree, hslot, hcount⟩
      · exact .inl hfree
      · exact .inr ⟨hleft, pos, hfree, hnone pos.pos hslot, hcount⟩

/-- No position is without items. -/
theorem count_pos : ∀ pos ∈ positions, 1 ≤ pos.count := by
  obtain ⟨merges, free, rfl, hmerges, hfree⟩ := h.room
  intro pos hpos
  rcases mem_append.mp hpos with hpos | hpos
  · exact (hmerges pos hpos).1
  · rcases hfree with rfl | ⟨-, last, rfl, hfree⟩
    · cases hpos
    · rw [mem_singleton.mp hpos]
      exact hfree.2.1

/-- While items are left, all positions are stacks that have room. -/
theorem merges (hleft : left ≠ 0) : ∀ pos ∈ positions, MergesAt maxStack slots item pos := by
  obtain ⟨merges, free, rfl, hmerges, hfree⟩ := h.room
  rcases hfree with rfl | ⟨hzero, -⟩
  · simpa using hmerges
  · exact absurd hzero hleft

/-- One more position. -/
theorem append (hleft : left ≠ 0)
    {count : Nat} (hcount : count ≤ left) (hslot : slotId < GUILD_BANK_MAX_SLOTS)
    (hnew : ¬∃ pos ∈ positions, pos.pos = slotId)
    (hroom : MergesAt maxStack slots item ⟨slotId, count⟩ ∨
      count = left ∧ FreeAt maxStack slots item ⟨slotId, count⟩) :
    Reserved maxStack slots item (positions ++ [⟨slotId, count⟩]) (left - count) where
  once := by
    rw [map_append, nodup_append]
    refine ⟨h.once, by simp, ?_⟩
    intro a ha b hb
    obtain ⟨pos, hpos, rfl⟩ := mem_map.mp ha
    have hb : b = slotId := by simpa using hb
    intro hab
    exact hnew ⟨pos, hpos, hab.trans hb⟩
  inTab := by
    intro pos hpos
    rcases mem_append.mp hpos with hpos | hpos
    · exact h.inTab pos hpos
    · rw [mem_singleton.mp hpos]
      exact hslot
  count := by
    have hbefore := h.count
    simp only [map_append, sum_append, map_cons, map_nil, sum_cons, sum_nil]
    omega
  room := by
    rcases hroom with hmerges | ⟨hall, hfree⟩
    · refine ⟨positions ++ [⟨slotId, count⟩], [], by simp, ?_, Or.inl rfl⟩
      intro pos hpos
      rcases mem_append.mp hpos with hpos | hpos
      · exact h.merges hleft pos hpos
      · rw [mem_singleton.mp hpos]
        exact hmerges
    · exact ⟨positions, [⟨slotId, count⟩], rfl, h.merges hleft,
        Or.inr ⟨by omega, ⟨slotId, count⟩, rfl, hfree⟩⟩

/-- Reserving keeps the positions: in a stack as many as fit, in a free slot all that are left. -/
theorem reserveSpace (hleft : left ≠ 0)
    (hmax : item.count ≤ maxStack item.entry) (hslot : slotId < GUILD_BANK_MAX_SLOTS)
    {dest : Option BankItem} (hdest : slots slotId = dest) {after : List ItemPosCount × Nat}
    (hafter : ItemBank.reserveSpace maxStack slotId item dest (positions, left) = some after) :
    Reserved maxStack slots item after.1 after.2 := by
  have hcount := h.count
  unfold ItemBank.reserveSpace at hafter
  cases dest with
  | none =>
    simp only [some.injEq] at hafter
    subst hafter
    split
    · exact h
    · next hnew =>
      have hall : min (maxStack item.entry) left = left := by omega
      rw [hall]
      apply h.append hleft le_rfl hslot hnew
      exact Or.inr ⟨rfl, hdest, by dsimp only; omega, by dsimp only; omega⟩
  | some dest =>
    simp only at hafter
    split at hafter
    · cases hafter
    · next hfits =>
      push Not at hfits
      simp only [some.injEq] at hafter
      subst hafter
      split
      · exact h
      · next hnew =>
        apply h.append hleft (min_le_right _ _) hslot hnew
        refine .inl ⟨?_, dest, hdest, hfits.1, ?_⟩
        · dsimp only
          omega
        · dsimp only
          omega

end

end Reserved

namespace ItemBank

variable {maxStack : Nat → Nat} {s : ItemBank} {data : BankMoveItemData} {item : BankItem}
  {positions : List ItemPosCount} {left : Nat}

/-- A slot that `CanStoreItemInTab` comes to keeps the positions. -/
theorem canStoreItemInSlot_reserved (merge : Bool) (hmax : item.count ≤ maxStack item.entry)
    {reserved : List ItemPosCount × Nat} {slotId : Nat} (hslot : slotId < GUILD_BANK_MAX_SLOTS)
    (h : Reserved maxStack (fun slotId => s.otherItem data.container slotId item) item
      reserved.1 reserved.2) :
    let after := s.canStoreItemInSlot maxStack data item merge reserved slotId
    Reserved maxStack (fun slotId => s.otherItem data.container slotId item) item after.1 after.2 := by
  unfold canStoreItemInSlot
  split
  · exact h
  · next hgoes =>
    push Not at hgoes
    dsimp only
    split
    · cases hreserve : reserveSpace maxStack slotId item (s.otherItem data.container slotId item)
        reserved with
      | none => exact h
      | some after => exact h.reserveSpace hgoes.1 hmax hslot rfl hreserve
    · exact h

theorem canStoreItemInTab_reserved (merge : Bool) (hmax : item.count ≤ maxStack item.entry)
    {reserved : List ItemPosCount × Nat}
    (h : Reserved maxStack (fun slotId => s.otherItem data.container slotId item) item
      reserved.1 reserved.2) :
    let after := s.canStoreItemInTab maxStack data item merge reserved
    Reserved maxStack (fun slotId => s.otherItem data.container slotId item) item after.1 after.2 := by
  have hslots : ∀ slotId ∈ range GUILD_BANK_MAX_SLOTS, slotId < GUILD_BANK_MAX_SLOTS :=
    fun slotId hslot => mem_range.mp hslot
  unfold canStoreItemInTab
  generalize range GUILD_BANK_MAX_SLOTS = slotIds at hslots
  induction slotIds generalizing reserved with
  | nil => exact h
  | cons slotId rest ih =>
    rw [foldl_cons]
    apply ih (canStoreItemInSlot_reserved merge hmax (hslots slotId mem_cons_self) h)
    exact fun other hother => hslots other (mem_cons_of_mem slotId hother)

/-- No slot of the tab is used once nothing is left. -/
theorem canStoreItemInTab_of_zero (merge : Bool) :
    s.canStoreItemInTab maxStack data item merge (positions, 0) = (positions, 0) := by
  unfold canStoreItemInTab
  generalize range GUILD_BANK_MAX_SLOTS = slotIds
  induction slotIds with
  | nil => rfl
  | cons slotId rest ih =>
    rw [foldl_cons]
    simpa [canStoreItemInSlot] using ih

/-- A slot is reserved behind the positions that are. -/
theorem prefix_reserveSpace {slotId : Nat} {dest : Option BankItem}
    {reserved after : List ItemPosCount × Nat}
    (hafter : reserveSpace maxStack slotId item dest reserved = some after) :
    reserved.1 <+: after.1 := by
  have hkeeps (count : Nat) : reserved.1 <+: (if ∃ pos ∈ reserved.1, pos.pos = slotId then reserved
      else (reserved.1 ++ [⟨slotId, count⟩], reserved.2 - count)).1 := by
    split
    · exact prefix_rfl
    · exact prefix_append _ _
  unfold reserveSpace at hafter
  cases dest with
  | none =>
    cases hafter
    exact hkeeps _
  | some dest =>
    dsimp only at hafter
    split at hafter
    · cases hafter
    · cases hafter
      exact hkeeps _

theorem prefix_canStoreItemInTab (merge : Bool) (reserved : List ItemPosCount × Nat) :
    reserved.1 <+: (s.canStoreItemInTab maxStack data item merge reserved).1 := by
  unfold canStoreItemInTab
  generalize range GUILD_BANK_MAX_SLOTS = slotIds
  induction slotIds generalizing reserved with
  | nil => exact prefix_rfl
  | cons slotId rest ih =>
    refine List.IsPrefix.trans ?_ (ih _)
    unfold canStoreItemInSlot
    split
    · exact prefix_rfl
    · dsimp only
      split
      · cases hreserve : reserveSpace maxStack slotId item (s.otherItem data.container slotId item)
          reserved with
        | none => exact prefix_rfl
        | some after => exact prefix_reserveSpace hreserve
      · exact prefix_rfl

/-- What is reserved for an item that is not to take the place of another one, at first in the slot
it is to go to. -/
theorem canStore_reserved (hcount : 1 ≤ item.count) (hmax : item.count ≤ maxStack item.entry)
    (hslot : data.slotId < GUILD_BANK_MAX_SLOTS)
    (hstore : s.canStore maxStack data item false = some positions) :
    Reserved maxStack (fun slotId => s.otherItem data.container slotId item) item positions 0 ∧
      ∃ pos ∈ positions, pos.pos = data.slotId := by
  unfold canStore at hstore
  split at hstore
  · cases hstore
  · split at hstore
    · cases hstore
    · simp only [Bool.false_eq_true, if_false] at hstore
      cases hreserve : reserveSpace maxStack data.slotId item
        (s.otherItem data.container data.slotId item) ([], item.count) with
      | none => simp [hreserve] at hstore
      | some reserved =>
        simp only [hreserve, ite_none_right_eq_some, some.injEq] at hstore
        have hfirst : Reserved maxStack (fun slotId => s.otherItem data.container slotId item) item
            reserved.1 reserved.2 :=
          Reserved.nil.reserveSpace (by omega) hmax hslot rfl hreserve
        obtain ⟨hzero, rfl⟩ := hstore
        constructor
        · rw [← hzero]
          apply canStoreItemInTab_reserved false hmax
          split
          · exact canStoreItemInTab_reserved true hmax hfirst
          · exact hfirst
        · have htarget : ∃ count, ⟨data.slotId, count⟩ ∈ reserved.1 := by
            unfold reserveSpace at hreserve
            grind
          obtain ⟨count, hcount⟩ := htarget
          refine ⟨⟨data.slotId, count⟩, (prefix_canStoreItemInTab false _).subset ?_, rfl⟩
          split
          · exact (prefix_canStoreItemInTab true reserved).subset hcount
          · exact hcount

/-- An item that takes the place of another one goes to that slot. -/
theorem canStore_swap (hmax : item.count ≤ maxStack item.entry)
    (hstore : s.canStore maxStack data item true = some positions) :
    positions = [⟨data.slotId, item.count⟩] := by
  unfold canStore at hstore
  have hall : min (maxStack item.entry) item.count = item.count := by omega
  split at hstore
  · cases hstore
  · split at hstore
    · cases hstore
    · simp only [if_true, reserveSpace, not_mem_nil, false_and, exists_false, if_false,
        nil_append, hall, Nat.sub_self, canStoreItemInTab_of_zero, ite_self,
        some.injEq] at hstore
      exact hstore.symm

/-- Only tabs of the bank have room. -/
theorem canStore_tab {swap : Bool} (hstore : s.canStore maxStack data item swap = some positions) :
    data.container < s.tabs := by
  unfold canStore at hstore
  split at hstore
  · cases hstore
  · split at hstore
    · cases hstore
    · omega

end ItemBank

end TrinityCore.Guilds
