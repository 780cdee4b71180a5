import TrinityCore.Lib.Portions
import TrinityCore.Looting.Loot

/-!
# What `AddItem` makes of a rolled count

The loop of `AddItem` takes one portion after the other from the count, each of at most the stack
size or currency cap, and stores it in an eight-bit field. For a currency without a cap, `MaxQty`
zero, the portions are taken with size zero.
-/

namespace TrinityCore.Looting

open List

open Portions

/-- The stack size or currency cap of an item the stores know. -/
def LootWorld.cap (w : LootWorld) (item : LootStoreItem) : Option UInt32 :=
  if item.is_currency then (w.lookupCurrency item.itemid).map (·.maxQty)
  else (w.getItemTemplate item.itemid).map (·.getMaxStackSize)

/-- The rolled count after the bonus for currencies. -/
def LootWorld.countOf (w : LootWorld) (loot : Loot) (item : LootStoreItem) (rolled : UInt32) :
    UInt32 :=
  if item.is_currency then
    match w.lookupCurrency item.itemid, w.findPlayer loot.lootOwnerGUID with
    | some currency, some player => player.currencyGain currency.categoryID rolled
    | _, _ => rolled
  else rolled

namespace Loot

/-- The entries appended have a positive count within the cap, where there is one, and know
their positions. The counts sum to the whole, unless the list has come to its limit. -/
structure Conserves (loot loot' : Loot) (needs_quest : Bool) (count cap : UInt32)
    (added : List LootItem) : Prop where
  items : loot'.lootItems needs_quest = loot.lootItems needs_quest ++ added
  others : loot'.lootItems (!needs_quest) = loot.lootItems (!needs_quest)
  counts : ∀ item ∈ added, 0 < item.count.toNat ∧ (cap ≠ 0 → item.count.toNat ≤ cap.toNat)
  positions : ∀ i item, added[i]? = some item →
    item.itemIndex.toNat = (loot.lootItems needs_quest).length + i
  total : (added.map (·.count.toNat)).sum = count.toNat ∨
    (loot'.lootItems needs_quest).length = (limit needs_quest).toNat

/-- No appended portion is a multiple of 256, and all fit in eight bits if there is still room
after them. An amount without a cap is not split at all, unless there is nothing to split or no
room. -/
def Portioned (loot : Loot) (needs_quest : Bool) (count cap : UInt32) : Prop :=
  count = 0 ∨ (loot.lootItems needs_quest).length = (limit needs_quest).toNat ∨
    cap ≠ 0 ∧ (loot.lootItems needs_quest).length < (limit needs_quest).toNat ∧
      (∀ p ∈ (portions cap.toNat count.toNat).take
        ((limit needs_quest).toNat - (loot.lootItems needs_quest).length), ¬p % 256 = 0) ∧
      ((loot.lootItems needs_quest).length + (portions cap.toNat count.toNat).length <
          (limit needs_quest).toNat →
        ∀ p ∈ portions cap.toNat count.toNat, p < 256)

/-! ### The loop -/

@[simp] theorem lootItems_push (loot : Loot) (needs_quest : Bool) (item : LootItem) :
    (loot.push needs_quest item).lootItems needs_quest = loot.lootItems needs_quest ++ [item] := by
  cases needs_quest <;> rfl

@[simp] theorem lootItems_push_not (loot : Loot) (needs_quest : Bool) (item : LootItem) :
    (loot.push needs_quest item).lootItems (!needs_quest) = loot.lootItems (!needs_quest) := by
  cases needs_quest <;> rfl

/-- What the rounds of the loop take from the count. -/
def amounts (cap : UInt32) : Nat → UInt32 → List Nat
  | 0, _ => []
  | rounds + 1, count => (min count cap).toNat :: amounts cap rounds (count - cap)

variable {w : LootWorld} {item : LootStoreItem} {cap : UInt32} {counted : Bool}

/-- The loop appends what its rounds take, modulo 256, as far as there is room. -/
theorem addStacks_spec (rounds : Nat) (count : UInt32) (loot : Loot) :
    ∃ added : List LootItem,
      (loot.addStacks w item cap counted rounds count).lootItems item.needs_quest =
        loot.lootItems item.needs_quest ++ added ∧
      (loot.addStacks w item cap counted rounds count).lootItems (!item.needs_quest) =
        loot.lootItems (!item.needs_quest) ∧
      added.map (·.count.toNat) =
        ((amounts cap rounds count).take ((limit item.needs_quest).toNat -
          (loot.lootItems item.needs_quest).length)).map (· % 256) ∧
      ∀ i e, added[i]? = some e →
        e.itemIndex = UInt32.ofNat ((loot.lootItems item.needs_quest).length + i) := by
  induction rounds generalizing count loot with
  | zero => exact ⟨[], (append_nil _).symm, rfl, by simp [amounts], by simp⟩
  | succ rounds ih =>
    unfold addStacks
    dsimp only
    split
    · next hroom =>
      generalize hentry : ({ LootItem.ofStore w item with
        count := (min count cap).toUInt8
        itemIndex := UInt32.ofNat (loot.lootItems item.needs_quest).length } : LootItem) = entry
      have hcount : entry.count.toNat = (min count cap).toNat % 256 := by
        rw [← hentry]
        exact UInt32.toNat_toUInt8 _
      have hindex : entry.itemIndex =
          UInt32.ofNat (loot.lootItems item.needs_quest).length := by rw [← hentry]
      -- the counter of unlooted entries does not matter here
      generalize hnext : (if (w.canSeeItem (loot.push item.needs_quest entry).lootOwnerGUID entry
          && counted) = true then
          { loot.push item.needs_quest entry with
            unlootedCount := (loot.push item.needs_quest entry).unlootedCount + 1 }
        else loot.push item.needs_quest entry) = next
      have hlists : ∀ q, next.lootItems q = (loot.push item.needs_quest entry).lootItems q := by
        intro q
        rw [← hnext]
        split <;> rfl
      obtain ⟨added, hitems, hothers, hcounts, hpositions⟩ := ih (count - cap) next
      rw [hlists, lootItems_push] at hitems hcounts hpositions
      rw [hlists, lootItems_push_not] at hothers
      refine ⟨entry :: added, ?_, hothers, ?_, ?_⟩
      · rw [hitems, append_assoc]
        rfl
      · have hsucc : (limit item.needs_quest).toNat - (loot.lootItems item.needs_quest).length =
            (limit item.needs_quest).toNat -
              (loot.lootItems item.needs_quest ++ [entry]).length + 1 := by
          rw [length_append, length_singleton]
          omega
        rw [map_cons, hcounts, hcount, hsucc]
        rfl
      · intro i e he
        cases i with
        | zero =>
          cases he
          exact hindex
        | succ i =>
          rw [hpositions i e he, length_append, length_singleton]
          congr 1
          omega
    · next hfull =>
      have hnone : (limit item.needs_quest).toNat - (loot.lootItems item.needs_quest).length = 0 :=
        Nat.sub_eq_zero_of_le (Nat.le_of_not_lt hfull)
      exact ⟨[], (append_nil _).symm, rfl, by rw [hnone]; rfl, by simp⟩

/-- A list has room for so few entries that their positions fit in 32 bits. -/
theorem limit_le (needs_quest : Bool) : (limit needs_quest).toNat ≤ 32 := by
  cases needs_quest <;> decide

/-- What `AddItem` conserves can be read off what the rounds of its loop take. -/
theorem conserves_addStacks_iff (rounds : Nat) (count count' : UInt32) (loot : Loot) :
    (∃ added, Conserves loot (loot.addStacks w item cap counted rounds count) item.needs_quest
        count' cap added) ↔
      (∀ p ∈ (amounts cap rounds count).take ((limit item.needs_quest).toNat -
          (loot.lootItems item.needs_quest).length),
        0 < p % 256 ∧ (cap ≠ 0 → p % 256 ≤ cap.toNat)) ∧
      ((((amounts cap rounds count).take ((limit item.needs_quest).toNat -
          (loot.lootItems item.needs_quest).length)).map (· % 256)).sum = count'.toNat ∨
        (loot.lootItems item.needs_quest).length + ((amounts cap rounds count).take
          ((limit item.needs_quest).toNat -
            (loot.lootItems item.needs_quest).length)).length =
          (limit item.needs_quest).toNat) := by
  obtain ⟨added, hitems, hothers, hcounts, hpositions⟩ :=
    @addStacks_spec w item cap counted rounds count loot
  have hlength := congrArg length hcounts
  rw [length_map, length_map] at hlength
  have hforall : (∀ e ∈ added, 0 < e.count.toNat ∧ (cap ≠ 0 → e.count.toNat ≤ cap.toNat)) ↔
      ∀ p ∈ (amounts cap rounds count).take ((limit item.needs_quest).toNat -
          (loot.lootItems item.needs_quest).length),
        0 < p % 256 ∧ (cap ≠ 0 → p % 256 ≤ cap.toNat) := by
    have hmap : (∀ x ∈ added.map (·.count.toNat), 0 < x ∧ (cap ≠ 0 → x ≤ cap.toNat)) ↔
        ∀ x ∈ ((amounts cap rounds count).take ((limit item.needs_quest).toNat -
          (loot.lootItems item.needs_quest).length)).map (· % 256),
          0 < x ∧ (cap ≠ 0 → x ≤ cap.toNat) := by rw [hcounts]
    rwa [forall_mem_map, forall_mem_map] at hmap
  have hsize : ((loot.addStacks w item cap counted rounds count).lootItems
      item.needs_quest).length = (loot.lootItems item.needs_quest).length + added.length := by
    rw [hitems, length_append]
  constructor
  · rintro ⟨others, hconserves⟩
    have hsame : others = added := append_cancel_left (hconserves.items.symm.trans hitems)
    subst hsame
    refine ⟨hforall.mp hconserves.counts, ?_⟩
    rw [← hcounts, ← hlength, ← hsize]
    exact hconserves.total
  · rintro ⟨hall, htotal⟩
    refine ⟨added, hitems, hothers, hforall.mpr hall, fun i e he => ?_, ?_⟩
    · have hi : i < added.length := (List.getElem?_eq_some_iff.mp he).1
      have hroom := length_take_le ((limit item.needs_quest).toNat -
        (loot.lootItems item.needs_quest).length) (amounts cap rounds count)
      have hlimit := limit_le item.needs_quest
      rw [hpositions i e he, UInt32.toNat_ofNat']
      exact Nat.mod_eq_of_lt (by omega)
    · rw [hcounts, hsize, hlength]
      exact htotal

/-! ### The rounds -/

/-- The rounds are those of the portions, of the whole amount. -/
theorem amounts_eq_portions (hcap : cap ≠ 0) {rounds : Nat} {count : UInt32}
    (hstacks : (portions cap.toNat count.toNat).length = rounds) :
    amounts cap rounds count = portions cap.toNat count.toNat := by
  have hpos : 0 < cap.toNat := Nat.pos_of_ne_zero fun h => hcap (UInt32.toNat_inj.mp h)
  induction rounds generalizing count with
  | zero => rw [length_eq_zero_iff.mp hstacks, amounts]
  | succ rounds ih =>
    have hcount : 0 < count.toNat := by
      apply Nat.pos_of_ne_zero
      intro hzero
      rw [hzero, portions_zero] at hstacks
      cases hstacks
    rw [portions_eq_cons hpos hcount, length_cons, Nat.add_right_cancel_iff] at hstacks
    rw [portions_eq_cons hpos hcount, amounts]
    have hmin : (min count cap).toNat = min count.toNat cap.toNat := by
      show (if count ≤ cap then count else cap).toNat = _
      split
      · next hle => exact (Nat.min_eq_left hle).symm
      · next hnot => exact (Nat.min_eq_right (Nat.le_of_lt (Nat.lt_of_not_le hnot))).symm
    rw [hmin]
    congr 1
    by_cases hle : cap ≤ count
    · rw [← UInt32.toNat_sub_of_le _ _ hle] at hstacks ⊢
      exact ih hstacks
    · have hlt : count.toNat < cap.toNat := Nat.lt_of_not_le hle
      rw [Nat.sub_eq_zero_of_le (Nat.le_of_lt hlt), portions_zero] at hstacks ⊢
      subst hstacks
      rfl

/-- The number of rounds. -/
theorem toNat_stacks {divisor : UInt32} (hdivisor : divisor ≠ 0) (count : UInt32) :
    (stackCount count divisor).toNat = (portions divisor.toNat count.toNat).length := by
  have hpos : 0 < divisor.toNat := Nat.pos_of_ne_zero fun h => hdivisor (UInt32.toNat_inj.mp h)
  have hcount := count.toNat_lt
  have hmod : count % divisor = 0 ↔ count.toNat % divisor.toNat = 0 := by
    rw [← UInt32.toNat_inj, UInt32.toNat_mod]
    rfl
  rw [length_portions]
  unfold stackCount
  rw [UInt32.toNat_add, UInt32.toNat_div]
  by_cases hrest : count % divisor = 0
  · rw [if_neg (not_not.mpr hrest), if_pos (hmod.mp hrest)]
    have hdiv := Nat.div_le_self count.toNat divisor.toNat
    exact Nat.mod_eq_of_lt (by show count.toNat / divisor.toNat + 0 < _; omega)
  · rw [if_pos hrest, if_neg fun h => hrest (hmod.mpr h)]
    -- a remainder is left by divisors of at least two only
    have htwo : 2 ≤ divisor.toNat := by
      apply Nat.le_of_not_lt
      intro hlt
      have hone : divisor.toNat = 1 := by omega
      apply hrest
      rw [hmod, hone, Nat.mod_one]
    have hdiv : count.toNat / divisor.toNat ≤ count.toNat / 2 :=
      Nat.div_le_div_left htwo (by decide)
    exact Nat.mod_eq_of_lt (by show count.toNat / divisor.toNat + 1 < _; omega)

/-- Portions of size zero. -/
theorem amounts_zero (rounds : Nat) (count : UInt32) :
    amounts 0 rounds count = List.replicate rounds 0 := by
  induction rounds generalizing count with
  | zero => rfl
  | succ rounds ih =>
    rw [amounts, ih, replicate_succ]
    congr 1
    show (if count ≤ 0 then count else 0).toNat = 0
    split
    · next hle => exact Nat.le_zero.mp hle
    · rfl

/-! ### The whole function -/

/-- A stack is not empty. -/
theorem getMaxStackSize_ne_zero (proto : ItemTemplate) : proto.getMaxStackSize ≠ 0 := by
  unfold ItemTemplate.getMaxStackSize
  split
  · decide
  · next hstackable =>
    rw [not_or] at hstackable
    intro hzero
    apply hstackable.2
    have h : proto.stackable = 0 := by
      have hto := congrArg UInt32.toInt32 hzero
      simpa using hto
    rw [h]
    decide

/-- `AddItem` goes through the loop with the portions of the count, or, without a cap, with one
portion of size zero for each unit of the count. -/
theorem addItem_eq (loot : Loot) (rolled : UInt32) (hcap : w.cap item = some cap) :
    ∃ counted, loot.addItem w item rolled = loot.addStacks w item cap counted
      (stackCount (w.countOf loot item rolled) (if cap = 0 then 1 else cap)).toNat
      (w.countOf loot item rolled) := by
  unfold LootWorld.cap at hcap
  unfold addItem LootWorld.countOf
  split at hcap
  · next hcurrency =>
    rw [if_pos hcurrency]
    obtain ⟨currency, hlookup, rfl⟩ := Option.map_eq_some_iff.mp hcap
    refine ⟨!item.needs_quest, ?_⟩
    have hdivisor : (if currency.maxQty > 0 then currency.maxQty else 1) =
        if currency.maxQty = 0 then 1 else currency.maxQty := by
      by_cases hzero : currency.maxQty = 0
      · rw [hzero]
        rfl
      · rw [if_neg hzero, if_pos (UInt32.pos_iff_ne_zero.mpr hzero)]
    rw [if_pos hcurrency]
    unfold addCurrency
    rw [hlookup]
    dsimp only
    rw [hdivisor]
    cases w.findPlayer loot.lootOwnerGUID <;> rfl
  · next hitem =>
    rw [if_neg hitem]
    obtain ⟨proto, hproto, rfl⟩ := Option.map_eq_some_iff.mp hcap
    refine ⟨!item.needs_quest && item.conditions.isEmpty && !proto.multiDrop, ?_⟩
    rw [hproto, if_neg hitem]
    dsimp only
    rw [if_neg (getMaxStackSize_ne_zero proto)]

/-- Portions of size zero conserve an amount when none is appended, and that is right. -/
theorem conserves_zero_iff {size limit count : Nat} {cap : UInt32} :
    (∀ p ∈ (List.replicate count 0).take (limit - size),
        0 < p % 256 ∧ (cap ≠ 0 → p % 256 ≤ cap.toNat)) ∧
      ((((List.replicate count 0).take (limit - size)).map (· % 256)).sum = count ∨
        size + ((List.replicate count 0).take (limit - size)).length = limit) ↔
    count = 0 ∨ size = limit := by
  rw [take_replicate, map_replicate, sum_replicate_nat, length_replicate]
  constructor
  · rintro ⟨hall, htotal⟩
    have hnone : min (limit - size) count = 0 := by
      apply Nat.eq_zero_of_not_pos
      intro hpos
      have hzero := (hall 0 (mem_replicate.mpr ⟨Nat.ne_of_gt hpos, rfl⟩)).1
      exact absurd hzero (by decide)
    rw [hnone] at htotal
    omega
  · rintro (rfl | rfl)
    · simp
    · simp

/-- Portions of a positive size conserve an amount when the appended ones do not vanish modulo
256 and, while there is room, all keep their size. -/
theorem conserves_portions_iff {size limit count cap : Nat} (hcap : 0 < cap) :
    (∀ p ∈ (portions cap count).take (limit - size), 0 < p % 256 ∧ p % 256 ≤ cap) ∧
      ((((portions cap count).take (limit - size)).map (· % 256)).sum = count ∨
        size + ((portions cap count).take (limit - size)).length = limit) ↔
    count = 0 ∨ size = limit ∨ size < limit ∧
      (∀ p ∈ (portions cap count).take (limit - size), ¬p % 256 = 0) ∧
      (size + (portions cap count).length < limit → ∀ p ∈ portions cap count, p < 256) := by
  have hbound : ∀ p ∈ (portions cap count).take (limit - size), p % 256 ≤ cap := by
    intro p hp
    have hle := (pos_and_le_of_mem_portions hcap (mem_of_mem_take hp)).2
    exact Nat.le_trans (Nat.mod_le p 256) hle
  have hsum := sum_portions cap count
  rw [length_take]
  rcases Nat.lt_or_ge size limit with hroom | hfull
  · constructor
    · rintro ⟨hall, htotal⟩
      refine .inr (.inr ⟨hroom, fun p hp => Nat.ne_of_gt (hall p hp).1, fun hshort => ?_⟩)
      rw [take_of_length_le (by omega)] at htotal
      rw [← sum_map_mod_eq_iff (by decide), hsum]
      exact htotal.resolve_right (by omega)
    · rintro (rfl | hfull | ⟨-, hall, hfit⟩)
      · simp
      · omega
      · refine ⟨fun p hp => ⟨Nat.pos_of_ne_zero (hall p hp), hbound p hp⟩, ?_⟩
        by_cases hshort : size + (portions cap count).length < limit
        · left
          rw [take_of_length_le (by omega), (sum_map_mod_eq_iff (by decide) _).mpr
            (hfit hshort), hsum]
        · right
          omega
  · rw [Nat.sub_eq_zero_of_le hfull, take_zero]
    constructor
    · rintro ⟨-, htotal⟩
      simp only [map_nil, sum_nil, Nat.zero_min] at htotal
      omega
    · intro hcases
      refine ⟨by simp, ?_⟩
      simp only [map_nil, sum_nil, Nat.zero_min]
      omega

/-- `AddItem` conserves the rolled count exactly when no portion it appends loses its whole size
in eight bits, none loses any of it while there is room, and there is a cap if anything is
appended. -/
theorem addItem_conserves_iff (w : LootWorld) (loot : Loot) (item : LootStoreItem)
    (rolled cap : UInt32) (hcap : w.cap item = some cap) :
    (∃ added, Conserves loot (loot.addItem w item rolled) item.needs_quest
        (w.countOf loot item rolled) cap added) ↔
      Portioned loot item.needs_quest (w.countOf loot item rolled) cap := by
  obtain ⟨counted, heq⟩ := addItem_eq loot rolled hcap
  rw [heq, conserves_addStacks_iff]
  unfold Portioned
  generalize w.countOf loot item rolled = count
  have hzero : count = 0 ↔ count.toNat = 0 := UInt32.toNat_inj.symm
  rw [hzero]
  by_cases hnocap : cap = 0
  · subst hnocap
    have hrounds : (stackCount count 1).toNat = count.toNat := by
      rw [toNat_stacks (by decide), length_portions]
      show count.toNat / 1 + (if count.toNat % 1 = 0 then 0 else 1) = _
      rw [Nat.div_one, Nat.mod_one, if_pos rfl, Nat.add_zero]
    rw [if_pos rfl, hrounds, amounts_zero, conserves_zero_iff]
    simp
  · have hpos : 0 < cap.toNat := Nat.pos_of_ne_zero fun h => hnocap (UInt32.toNat_inj.mp h)
    rw [if_neg hnocap, toNat_stacks hnocap, amounts_eq_portions hnocap rfl]
    simp only [ne_eq, hnocap, not_false_iff, true_imp_iff, true_and]
    exact conserves_portions_iff hpos

/-- A world with one currency, of no maximum. -/
def uncappedWorld : LootWorld where
  getItemTemplate _ := none
  lookupCurrency _ := some { maxQty := 0 }
  findPlayer _ := none
  allowedForPlayer _ _ := true

theorem addItem_conserves_iff_uncapped :
    (∃ added, Conserves {} (({} : Loot).addItem uncappedWorld ⟨395, false, true, 5, 5, []⟩ 5)
        false (uncappedWorld.countOf {} ⟨395, false, true, 5, 5, []⟩ 5) 0 added) ↔
      Portioned {} false (uncappedWorld.countOf {} ⟨395, false, true, 5, 5, []⟩ 5) 0 :=
  addItem_conserves_iff uncappedWorld {} ⟨395, false, true, 5, 5, []⟩ 5 0 rfl

/-- Five units of a currency without a maximum become five entries of none. -/
theorem addItem_loses_uncapped_currency :
    ¬∀ (w : LootWorld) (loot : Loot) (item : LootStoreItem) (rolled cap : UInt32),
      w.cap item = some cap → item.mincount.toNat ≤ rolled.toNat →
      rolled.toNat ≤ item.maxcount.toNat →
      ∃ added, Conserves loot (loot.addItem w item rolled) item.needs_quest
        (w.countOf loot item rolled) cap added := by
  intro hall
  obtain ⟨added, hconserves⟩ := hall uncappedWorld {} ⟨395, false, true, 5, 5, []⟩ 5 0 rfl
    (by decide) (by decide)
  have hitems := hconserves.items
  have hmem : ({ itemid := 395, is_currency := true } : LootItem) ∈ added := by
    have hfirst : ({ itemid := 395, is_currency := true } : LootItem) ∈
        (({} : Loot).addItem uncappedWorld ⟨395, false, true, 5, 5, []⟩ 5).lootItems false := by
      decide +kernel
    rw [hitems] at hfirst
    simpa [lootItems] using hfirst
  exact absurd (hconserves.counts _ hmem).1 (by decide)

end Loot

end TrinityCore.Looting
