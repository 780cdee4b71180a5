import TrinityCore.Guilds.BankReservations

/-!
# Stacks of a guild bank

What one write to a slot does to the stacks of a bank and to how many items of an entry it holds,
and from it what storing an item at its reserved positions does.
-/

namespace TrinityCore.Guilds

open Function List

/-- How many items of the entry a slot holds. -/
def stackOf (entry : Nat) : Option BankItem → Nat
  | some item => if item.entry = entry then item.count else 0
  | none => 0

@[simp] theorem stackOf_none (entry : Nat) : stackOf entry none = 0 := rfl

@[simp] theorem stackOf_some (entry : Nat) (item : BankItem) :
    stackOf entry (some item) = if item.entry = entry then item.count else 0 := rfl

variable (o : Option BankItem)

namespace ItemBank

/-- The slots of a bank. -/
def slots (tabs : Nat) : Finset (Nat × Nat) := Finset.range tabs ×ˢ Finset.range GUILD_BANK_MAX_SLOTS

/-- How many items of the entry a bank holds. -/
def total (s : ItemBank) (entry : Nat) : Nat := ∑ slot ∈ slots s.tabs, stackOf entry (s.items slot)

/-- Stacks that are neither empty nor over their maximum, in slots of the bank, each with an object
of its own. -/
structure Stocked (maxStack : Nat → Nat) (s : ItemBank) : Prop where
  inside : ∀ slot item, s.items slot = some item → slot ∈ slots s.tabs
  counts : ∀ slot item, s.items slot = some item → 1 ≤ item.count ∧ item.count ≤ maxStack item.entry
  objects : ∀ slot slot' item item', s.items slot = some item → s.items slot' = some item' →
    item.guid = item'.guid → slot = slot'
  known : ∀ slot item, s.items slot = some item → item.guid < s.nextItemGuid

/-- An item object that is in no slot of the bank. -/
structure Loose (maxStack : Nat → Nat) (s : ItemBank) (item : BankItem) : Prop where
  count : 1 ≤ item.count ∧ item.count ≤ maxStack item.entry
  absent : ∀ slot other, s.items slot = some other → other.guid ≠ item.guid
  known : item.guid < s.nextItemGuid

variable {maxStack : Nat → Nat} {s t : ItemBank} {item dest : BankItem} {tabId slotId : Nat}

theorem mem_slots {tabs : Nat} {slot : Nat × Nat} :
    slot ∈ slots tabs ↔ slot.1 < tabs ∧ slot.2 < GUILD_BANK_MAX_SLOTS := by
  simp [slots]

@[simp] theorem setItem_items :
    (s.setItem tabId slotId o).items = update s.items (tabId, slotId) o := rfl

@[simp] theorem setItem_tabs : (s.setItem tabId slotId o).tabs = s.tabs := rfl

@[simp] theorem setItem_nextItemGuid :
    (s.setItem tabId slotId o).nextItemGuid = s.nextItemGuid := rfl

theorem getItem_eq_some : s.getItem tabId slotId = some item ↔
    (tabId < s.tabs ∧ slotId < GUILD_BANK_MAX_SLOTS) ∧ s.items (tabId, slotId) = some item := by
  simp [getItem]

theorem getItem_of_mem (h : (tabId, slotId) ∈ slots s.tabs) :
    s.getItem tabId slotId = s.items (tabId, slotId) := by
  rw [mem_slots] at h
  exact if_pos h

/-- A write to one slot leaves the items of the others. -/
theorem getItem_setItem_of_ne {tabId' slotId' : Nat} (hne : (tabId', slotId') ≠ (tabId, slotId)) :
    (s.setItem tabId slotId o).getItem tabId' slotId' = s.getItem tabId' slotId' := by
  simp [getItem, update_of_ne hne]

/-- What a write to a slot does to how many items the bank holds. -/
theorem total_setItem (hmem : (tabId, slotId) ∈ slots s.tabs) (o : Option BankItem) (entry : Nat) :
    (s.setItem tabId slotId o).total entry + stackOf entry (s.items (tabId, slotId)) =
      s.total entry + stackOf entry o := by
  have hafter := Finset.add_sum_erase (slots s.tabs)
    (fun slot => stackOf entry (update s.items (tabId, slotId) o slot)) hmem
  have hbefore := Finset.add_sum_erase (slots s.tabs)
    (fun slot => stackOf entry (s.items slot)) hmem
  have hothers : ∑ slot ∈ (slots s.tabs).erase (tabId, slotId),
      stackOf entry (update s.items (tabId, slotId) o slot) =
      ∑ slot ∈ (slots s.tabs).erase (tabId, slotId), stackOf entry (s.items slot) := by
    apply Finset.sum_congr rfl
    intro slot hslot
    rw [update_of_ne (Finset.ne_of_mem_erase hslot)]
  simp only [update_self] at hafter
  simp only [total, setItem_tabs, setItem_items]
  omega

namespace Stocked

/-- A slot is emptied, and its item is in no slot then. -/
theorem remove (h : Stocked maxStack s) (hitem : s.items (tabId, slotId) = some item) :
    Stocked maxStack (s.setItem tabId slotId none) ∧
      Loose maxStack (s.setItem tabId slotId none) item := by
  have hbefore : ∀ slot other,
      update s.items (tabId, slotId) none slot = some other →
        slot ≠ (tabId, slotId) ∧ s.items slot = some other := by
    intro slot other hother
    by_cases hslot : slot = (tabId, slotId)
    · rw [hslot, update_self] at hother
      cases hother
    · rw [update_of_ne hslot] at hother
      exact ⟨hslot, hother⟩
  constructor
  · constructor
    · intro slot other hother
      exact h.inside slot other (hbefore slot other hother).2
    · intro slot other hother
      exact h.counts slot other (hbefore slot other hother).2
    · intro slot slot' other other' hother hother' hguid
      exact h.objects slot slot' other other' (hbefore slot other hother).2
        (hbefore slot' other' hother').2 hguid
    · intro slot other hother
      exact h.known slot other (hbefore slot other hother).2
  · refine ⟨h.counts _ item hitem, ?_, h.known _ item hitem⟩
    intro slot other hother hguid
    obtain ⟨hslot, hother⟩ := hbefore slot other hother
    exact hslot (h.objects slot (tabId, slotId) other item hother hitem hguid)

/-- The stack of a slot gets another count. -/
theorem resize (h : Stocked maxStack s) (hitem : s.items (tabId, slotId) = some item)
    {count : Nat} (hcount : 1 ≤ count ∧ count ≤ maxStack item.entry) :
    Stocked maxStack (s.setItem tabId slotId (some { item with count })) := by
  have hbefore : ∀ slot other,
      update s.items (tabId, slotId) (some { item with count }) slot = some other →
        ∃ before, s.items slot = some before ∧ before.guid = other.guid ∧
          (1 ≤ other.count ∧ other.count ≤ maxStack other.entry) := by
    intro slot other hother
    by_cases hslot : slot = (tabId, slotId)
    · rw [hslot, update_self] at hother
      cases hother
      exact ⟨item, by rw [hslot, hitem], rfl, hcount⟩
    · rw [update_of_ne hslot] at hother
      exact ⟨other, hother, rfl, h.counts slot other hother⟩
  constructor
  · intro slot other hother
    obtain ⟨before, hmem, -⟩ := hbefore slot other hother
    exact h.inside slot before hmem
  · intro slot other hother
    obtain ⟨before, -, -, hfits⟩ := hbefore slot other hother
    exact hfits
  · intro slot slot' other other' hother hother' hguid
    obtain ⟨before, hmem, hsame, -⟩ := hbefore slot other hother
    obtain ⟨before', hmem', hsame', -⟩ := hbefore slot' other' hother'
    exact h.objects slot slot' before before' hmem hmem' (by rw [hsame, hsame', hguid])
  · intro slot other hother
    obtain ⟨before, hmem, hsame, -⟩ := hbefore slot other hother
    rw [← hsame]
    exact h.known slot before hmem

/-- An item that is in no slot is put into one, with another count. -/
theorem put (h : Stocked maxStack s) (hloose : Loose maxStack s item)
    (hmem : (tabId, slotId) ∈ slots s.tabs) {count : Nat}
    (hcount : 1 ≤ count ∧ count ≤ maxStack item.entry) :
    Stocked maxStack (s.setItem tabId slotId (some { item with count })) := by
  have hcases : ∀ slot other,
      update s.items (tabId, slotId) (some { item with count }) slot = some other →
        slot = (tabId, slotId) ∧ other = { item with count } ∨
          slot ≠ (tabId, slotId) ∧ s.items slot = some other := by
    intro slot other hother
    by_cases hslot : slot = (tabId, slotId)
    · rw [hslot, update_self] at hother
      exact .inl ⟨hslot, (Option.some.inj hother).symm⟩
    · rw [update_of_ne hslot] at hother
      exact .inr ⟨hslot, hother⟩
  constructor
  · intro slot other hother
    rcases hcases slot other hother with ⟨rfl, -⟩ | ⟨-, hother⟩
    · exact hmem
    · exact h.inside slot other hother
  · intro slot other hother
    rcases hcases slot other hother with ⟨-, rfl⟩ | ⟨-, hother⟩
    · exact hcount
    · exact h.counts slot other hother
  · intro slot slot' other other' hother hother' hguid
    rcases hcases slot other hother with ⟨rfl, rfl⟩ | ⟨-, hother⟩ <;>
      rcases hcases slot' other' hother' with ⟨rfl, rfl⟩ | ⟨-, hother'⟩
    · rfl
    · exact absurd hguid.symm (hloose.absent slot' other' hother')
    · exact absurd hguid (hloose.absent slot other hother)
    · exact h.objects slot slot' other other' hother hother' hguid
  · intro slot other hother
    rcases hcases slot other hother with ⟨-, rfl⟩ | ⟨-, hother⟩
    · exact hloose.known
    · exact h.known slot other hother

end Stocked

/-- An item in no slot stays so when another one is put into a slot. -/
theorem Loose.put (h : Loose maxStack s item) {stack : BankItem} (hguid : stack.guid ≠ item.guid) :
    Loose maxStack (s.setItem tabId slotId (some stack)) item := by
  refine ⟨h.count, ?_, h.known⟩
  intro slot other hother
  by_cases hslot : slot = (tabId, slotId)
  · rw [setItem_items, hslot, update_self] at hother
    cases hother
    exact hguid
  · rw [setItem_items, update_of_ne hslot] at hother
    exact h.absent slot other hother

/-- An item in no slot stays so when a stack gets another count. -/
theorem Loose.resize (h : Loose maxStack s item) (hdest : s.items (tabId, slotId) = some dest)
    (count : Nat) : Loose maxStack (s.setItem tabId slotId (some { dest with count })) item :=
  h.put (h.absent _ dest hdest)

/-- How many items go to the slot. -/
def storedAt (positions : List ItemPosCount) (slotId : Nat) : Nat :=
  (positions.map fun pos => if pos.pos = slotId then pos.count else 0).sum

/-- The item was stored at the positions of the tab, and nothing else was done to the bank. -/
structure Stores (maxStack : Nat → Nat) (item : BankItem) (tabId : Nat)
    (positions : List ItemPosCount) (s t : ItemBank) : Prop where
  stocked : Stocked maxStack t
  amounts : ∀ entry slot, stackOf entry (t.items slot) = stackOf entry (s.items slot) +
    if slot.1 = tabId ∧ item.entry = entry then storedAt positions slot.2 else 0
  tabs : t.tabs = s.tabs
  guild : t.guild = s.guild
  moves : t.moves = s.moves

variable {pos : ItemPosCount} {positions positions' : List ItemPosCount}

theorem Stores.trans {u : ItemBank} (h : Stores maxStack item tabId positions s t)
    (h' : Stores maxStack item tabId positions' t u) :
    Stores maxStack item tabId (positions ++ positions') s u where
  stocked := h'.stocked
  amounts := by
    intro entry slot
    rw [h'.amounts, h.amounts]
    split
    · simp [storedAt, Nat.add_assoc]
    · rfl
  tabs := h'.tabs.trans h.tabs
  guild := h'.guild.trans h.guild
  moves := h'.moves.trans h.moves

/-- One write that adds to the stack of a slot. -/
theorem amounts_setItem {o : Option BankItem} (ho : ∀ entry, stackOf entry o =
      stackOf entry (s.items (tabId, pos.pos)) + if item.entry = entry then pos.count else 0)
    (entry : Nat) (slot : Nat × Nat) :
    stackOf entry ((s.setItem tabId pos.pos o).items slot) = stackOf entry (s.items slot) +
      if slot.1 = tabId ∧ item.entry = entry then storedAt [pos] slot.2 else 0 := by
  rw [setItem_items]
  by_cases hslot : slot = (tabId, pos.pos)
  · simp [hslot, storedAt, ho]
  · have hpos : slot.1 = tabId → pos.pos ≠ slot.2 := fun htab hpos =>
      hslot (Prod.ext htab hpos.symm)
    rw [update_of_ne hslot]
    split
    · next htab => simp [storedAt, hpos htab.1]
    · rfl

/-- The slots of the tab get as many items as the positions take. -/
theorem sum_storedAt (hslots : ∀ pos ∈ positions, pos.pos < GUILD_BANK_MAX_SLOTS) :
    ∑ slotId ∈ Finset.range GUILD_BANK_MAX_SLOTS, storedAt positions slotId =
      (positions.map ItemPosCount.count).sum := by
  induction positions with
  | nil => simp [storedAt]
  | cons pos positions ih =>
    rw [forall_mem_cons] at hslots
    have hpos := Finset.mem_range.mpr hslots.1
    simp only [storedAt, map_cons, sum_cons, Finset.sum_add_distrib, Finset.sum_ite_eq, if_pos hpos]
    rw [← ih hslots.2]
    rfl

/-- At a position in a stack that has room, the item is added to the stack. -/
theorem storeItem_merge (h : MergesAt maxStack (s.getItem tabId) item pos) :
    ∃ dest, s.items (tabId, pos.pos) = some dest ∧
      dest.entry = item.entry ∧ dest.count + pos.count ≤ maxStack item.entry ∧
      ∀ rest, storeItem maxStack tabId item (pos :: rest) s = storeItem maxStack tabId item rest
        (s.setItem tabId pos.pos (some { dest with count := dest.count + pos.count })) := by
  obtain ⟨-, dest, hdest, hentry, hfits⟩ := h
  refine ⟨dest, (getItem_eq_some.mp hdest).2, hentry, hfits, ?_⟩
  intro rest
  cases rest with
  | nil => simp [storeItem, storeItemAt, hdest]
  | cons next rest => simp [storeItem, storeItemAt, hdest]

theorem Stocked.store_merge (h : Stocked maxStack s)
    (hdest : s.items (tabId, pos.pos) = some dest)
    (hentry : dest.entry = item.entry) (hfits : dest.count + pos.count ≤ maxStack item.entry) :
    Stores maxStack item tabId [pos] s
      (s.setItem tabId pos.pos (some { dest with count := dest.count + pos.count })) where
  stocked := by
    apply h.resize hdest
    have hcount := h.counts _ dest hdest
    rw [hentry]
    omega
  amounts := by
    apply amounts_setItem
    intro entry
    simp only [hdest, stackOf_some, hentry]
    split <;> rfl
  tabs := rfl
  guild := rfl
  moves := rfl

/-- At a position in a slot without an item, the item itself is put there. -/
theorem storeItem_free (h : FreeAt maxStack (s.getItem tabId) item pos) :
    storeItem maxStack tabId item [pos] s =
      s.setItem tabId pos.pos (some { item with count := pos.count }) := by
  simp [storeItem, storeItemAt, h.1]

theorem Stocked.store_free (h : Stocked maxStack s) (hloose : Loose maxStack s item)
    (hmem : (tabId, pos.pos) ∈ slots s.tabs) (hfree : FreeAt maxStack (s.getItem tabId) item pos) :
    Stores maxStack item tabId [pos] s (storeItem maxStack tabId item [pos] s) := by
  have hnone : s.items (tabId, pos.pos) = none := by
    rw [← getItem_of_mem hmem]
    exact hfree.1
  rw [storeItem_free hfree]
  refine ⟨h.put hloose hmem hfree.2, amounts_setItem fun entry => ?_, rfl, rfl, rfl⟩
  rw [hnone, stackOf_none, stackOf_some, Nat.zero_add]

/-- Storing an item at the positions reserved for it stores it as it was reserved. The induction
is on the stacks that have room; a write to one of them changes no other position. -/
theorem Stocked.storeItem (h : Stocked maxStack s) (hloose : Loose maxStack s item)
    (htab : tabId < s.tabs) {left : Nat}
    (hreserved : Reserved maxStack (s.getItem tabId) item positions left) :
    Stores maxStack item tabId positions s (storeItem maxStack tabId item positions s) := by
  obtain ⟨honce, hslots, -, merges, free, rfl, hmerges, hfree⟩ := hreserved
  induction merges generalizing s with
  | nil =>
    rcases hfree with rfl | ⟨-, pos, rfl, hfree⟩
    · exact ⟨h, by simp [ItemBank.storeItem, storedAt], rfl, rfl, rfl⟩
    · have hmem : (tabId, pos.pos) ∈ slots s.tabs :=
        mem_slots.mpr ⟨htab, hslots pos (by simp)⟩
      simpa using h.store_free hloose hmem hfree
  | cons pos merges ih =>
    obtain ⟨dest, hdest, hentry, hfits, hstore⟩ := storeItem_merge (hmerges pos mem_cons_self)
    have hstored := h.store_merge hdest hentry hfits
    rw [cons_append, map_cons, nodup_cons] at honce
    have hsame : ∀ other ∈ merges ++ free,
        (s.setItem tabId pos.pos (some { dest with count := dest.count + pos.count })).getItem
          tabId other.pos = s.getItem tabId other.pos := by
      intro other hother
      apply getItem_setItem_of_ne
      intro heq
      have hpos : other.pos = pos.pos := (Prod.ext_iff.mp heq).2
      apply honce.1
      rw [← hpos]
      exact mem_map_of_mem hother
    rw [cons_append, hstore]
    apply hstored.trans
    apply ih hstored.stocked (hloose.resize hdest _) htab honce.2
    · exact fun other hother => hslots other (mem_cons_of_mem pos hother)
    · intro other hother
      have hbefore := hmerges other (mem_cons_of_mem pos hother)
      unfold MergesAt at hbefore ⊢
      rw [hsame other (mem_append_left free hother)]
      exact hbefore
    · rcases hfree with rfl | ⟨hleft, last, rfl, hfree⟩
      · exact .inl rfl
      · refine .inr ⟨hleft, last, rfl, ?_⟩
        unfold FreeAt at hfree ⊢
        rw [hsame last (by simp)]
        exact hfree

end ItemBank

end TrinityCore.Guilds
