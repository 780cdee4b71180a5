import Mathlib.Data.List.Sort
import TrinityCore.Groups.LootRollTally
import TrinityCore.Lib.FirstMaximum
import TrinityCore.Looting.Loot

/-!
# The end of a loot roll

`Group::CountTheRoll` as a whole: the loops over the votes, the winner and the item. The votes
are a `std::map` and are gone through by GUID. What is sent and what the winner gets is recorded.
-/

namespace TrinityCore.Groups

open List

open FirstMaximum

/-- A player of the object accessor's holder. It has a session, which its constructor reads. -/
structure Online where
  isInWorld : Bool
  /-- `FindMap`, by the map's number. -/
  findMap : Option Nat
  deriving DecidableEq, Repr

/-- What the count of a roll asks the world for. -/
structure RollWorld where
  /-- `HashMapHolder<Player>::Find`. -/
  find : ObjectGuid → Option Online
  find_empty : find 0 = none
  /-- The results of `urand(1, 100)`, in the order of the calls. -/
  urand : Nat → UInt8
  urand_mem : ∀ n, 1 ≤ urand n ∧ urand n ≤ 100
  /-- `CanStoreNewItem` says `EQUIP_ERR_OK`. -/
  canStoreNewItem : ObjectGuid → UInt32 → UInt8 → Bool
  /-- `GetItemTemplate` finds one. -/
  getItemTemplate : UInt32 → Bool

namespace RollWorld

/-- `ObjectAccessor::FindPlayer`. -/
def findPlayer (w : RollWorld) (guid : ObjectGuid) : Option Online :=
  (w.find guid).filter (·.isInWorld)

/-- `ObjectAccessor::FindConnectedPlayer`. -/
def findConnectedPlayer (w : RollWorld) (guid : ObjectGuid) : Option Online := w.find guid

/-- The voter is in the world and, if only one map is allowed, on it. -/
def isPresent (w : RollWorld) (allowedMap : Option Nat) (guid : ObjectGuid) : Bool :=
  match w.findPlayer guid with
  | none => false
  | some player =>
    match allowedMap with
    | none => true
    | some map => player.findMap == some map

end RollWorld

/-- `Roll`, with the item it is for. -/
structure ItemRoll extends Roll where
  itemid : UInt32
  itemSlot : UInt8

/-- The entries of `playerVote`, in map order. -/
def Roll.votes (r : Roll) : List (ObjectGuid × RollVote) :=
  (r.playerVote.entries.map fun e => (e.1, e.2)).insertionSort fun a b => a.1 ≤ b.1

/-- A number a voter rolled, as `SendLootRoll` tells it. -/
structure Rolled where
  guid : ObjectGuid
  vote : RollVote
  randomN : UInt8
  deriving DecidableEq, Repr

/-- The variables of a loop over the votes. -/
structure Counting where
  /-- `totalNeed` or `totalGreed`. -/
  total : UInt8
  /-- How often `urand` was called. -/
  drawn : Nat
  rolled : List Rolled := []
  /-- `maxguid`, `rollvote` and `maxresul`. -/
  max : Rolled := ⟨0, .NOT_VALID, 0⟩
  deriving DecidableEq, Repr

/-- A round of the loop over the votes. -/
def Counting.round (w : RollWorld) (allowedMap : Option Nat) (counted : RollVote → Bool)
    (c : Counting) (itr : ObjectGuid × RollVote) : Counting :=
  if !counted itr.2 then c
  else if !w.isPresent allowedMap itr.1 then { c with total := c.total - 1 }
  else
    let roll : Rolled := ⟨itr.1, itr.2, w.urand c.drawn⟩
    { c with
      drawn := c.drawn + 1
      rolled := c.rolled ++ [roll]
      max := if c.max.randomN < roll.randomN then roll else c.max }

/-- What a roll has led to. -/
structure Outcome where
  loot : Looting.Loot
  rolled : List Rolled := []
  /-- `SendLootRollWon`. -/
  won : List Rolled := []
  /-- `StoreNewItem`: the player, the item and its count. -/
  stored : List (ObjectGuid × UInt32 × UInt8) := []
  /-- Who disenchanted the item, and whether the result went into the bags or by mail. -/
  disenchanted : List (ObjectGuid × Bool) := []
  /-- `SendLootAllPassed`. -/
  allPassed : Bool := false
  deriving DecidableEq, Repr

/-- The item in a slot: the quest items follow the items. -/
def slotItem (loot : Looting.Loot) (itemSlot : UInt8) : Option Looting.LootItem :=
  if itemSlot.toNat ≥ loot.items.length then
    loot.quest_items[itemSlot.toNat - loot.items.length]?
  else loot.items[itemSlot.toNat]?

/-- Write to the item in a slot. -/
def setSlotItem (loot : Looting.Loot) (itemSlot : UInt8) (item : Looting.LootItem) :
    Looting.Loot :=
  if itemSlot.toNat ≥ loot.items.length then
    { loot with quest_items := loot.quest_items.set (itemSlot.toNat - loot.items.length) item }
  else { loot with items := loot.items.set itemSlot.toNat item }

/-- Mark the item as looted. -/
def lootSlotItem (loot : Looting.Loot) (itemSlot : UInt8) (item : Looting.LootItem) :
    Looting.Loot :=
  { setSlotItem loot itemSlot { item with is_looted := true } with
    unlootedCount := loot.unlootedCount - 1 }

/-- What the winner gets. An item past the end of the lists, which the source would read, and a
disenchanted item without a template, which it asserts, have no outcome. -/
def award (w : RollWorld) (roll : ItemRoll) (max : Rolled) (o : Outcome) : Option Outcome :=
  match w.findConnectedPlayer max.guid with
  | none => some o
  | some _ =>
    match slotItem o.loot roll.itemSlot with
    | none => none
    | some item =>
      let msg := w.canStoreNewItem max.guid roll.itemid item.count
      if max.vote = .DISENCHANT then
        if w.getItemTemplate roll.itemid then
          some { o with
            loot := lootSlotItem o.loot roll.itemSlot item
            disenchanted := o.disenchanted ++ [(max.guid, msg)] }
        else none
      else if msg then
        some { o with
          loot := lootSlotItem o.loot roll.itemSlot item
          stored := o.stored ++ [(max.guid, roll.itemid, item.count)] }
      else
        some { o with
          loot := setSlotItem o.loot roll.itemSlot
            { item with is_blocked := false, rollWinnerGUID := max.guid } }

/-- The part of `CountTheRoll` for one kind of vote: what is left of its counter, the number of
random numbers used, and the outcome. -/
def countVotes (w : RollWorld) (allowedMap : Option Nat) (roll : ItemRoll)
    (counted : RollVote → Bool) (total : UInt8) (drawn : Nat) (o : Outcome) :
    Option (UInt8 × Nat × Outcome) :=
  if total > 0 ∧ roll.votes ≠ [] then
    let c := roll.votes.foldl (Counting.round w allowedMap counted) { total, drawn }
    let o := { o with rolled := o.rolled ++ c.rolled }
    if c.max.guid ≠ 0 then
      (award w roll c.max { o with won := o.won ++ [c.max] }).map fun o => (c.total, c.drawn, o)
    else some (0, c.drawn, o)
  else some (total, drawn, o)

/-- The last part of `CountTheRoll`, when both counters are zero. -/
def allPassed (roll : ItemRoll) (o : Outcome) : Option Outcome :=
  (slotItem o.loot roll.itemSlot).map fun item =>
    { o with
      allPassed := true
      loot := setSlotItem o.loot roll.itemSlot { item with is_blocked := false } }

/-- `CountTheRoll`, of a roll whose loot still exists, less the erasing of the roll. -/
def countRoll (w : RollWorld) (allowedMap : Option Nat) (roll : ItemRoll) (loot : Looting.Loot) :
    Option Outcome :=
  match countVotes w allowedMap roll (· == .NEED) roll.totalNeed 0 { loot } with
  | none => none
  | some (totalNeed, drawn, o) =>
    if totalNeed = 0 ∧ roll.totalGreed > 0 then
      match countVotes w allowedMap roll RollVote.isGreed roll.totalGreed drawn o with
      | none => none
      | some (totalGreed, _, o) => if totalGreed = 0 then allPassed roll o else some o
    else if totalNeed = 0 ∧ roll.totalGreed = 0 then allPassed roll o
    else some o

/-- `CountTheRoll`: the group without the roll, and the outcome if the loot still exists. -/
def Group.countTheRollOf (g : Group) (w : RollWorld) (allowedMap : Option Nat) (roll : ItemRoll)
    (loot : Option Looting.Loot) : Option (Group × Option Outcome) :=
  match loot with
  | none => some (g.countTheRoll roll.itemGUID, none)
  | some loot =>
    (countRoll w allowedMap roll loot).map fun o => (g.countTheRoll roll.itemGUID, some o)

/-! ### The loop over the votes -/

/-- The voters of one kind who are present. -/
def voters (w : RollWorld) (allowedMap : Option Nat) (counted : RollVote → Bool)
    (votes : List (ObjectGuid × RollVote)) : List (ObjectGuid × RollVote) :=
  votes.filter fun v => counted v.2 && w.isPresent allowedMap v.1

/-- The number of voters of one kind who are not. -/
def absent (w : RollWorld) (allowedMap : Option Nat) (counted : RollVote → Bool)
    (votes : List (ObjectGuid × RollVote)) : Nat :=
  votes.countP fun v => counted v.2 && !w.isPresent allowedMap v.1

/-- What voters roll, from the first random number on. -/
def draws (w : RollWorld) (first : Nat) (voters : List (ObjectGuid × RollVote)) : List Rolled :=
  voters.mapIdx fun i v => ⟨v.1, v.2, w.urand (first + i)⟩

/-- The value of a number rolled. -/
abbrev Rolled.rank (r : Rolled) : Nat := r.randomN.toNat

variable {w : RollWorld} {allowedMap : Option Nat} {counted : RollVote → Bool}

theorem draws_cons (first : Nat) (v : ObjectGuid × RollVote)
    (voters : List (ObjectGuid × RollVote)) :
    draws w first (v :: voters) = ⟨v.1, v.2, w.urand first⟩ :: draws w (first + 1) voters := by
  unfold draws
  rw [mapIdx_cons, Nat.add_zero]
  simp only [Nat.add_assoc, Nat.add_comm 1]

/-- Who rolled a number is a voter with his vote, and the number is positive. -/
theorem mem_draws {first : Nat} {voters : List (ObjectGuid × RollVote)} {r : Rolled}
    (h : r ∈ draws w first voters) : (r.guid, r.vote) ∈ voters ∧ 0 < r.rank := by
  induction voters generalizing first with
  | nil => cases h
  | cons v voters ih =>
    rw [draws_cons] at h
    rcases mem_cons.mp h with rfl | hrest
    · exact ⟨mem_cons_self, (w.urand_mem first).1⟩
    · obtain ⟨hmem, hpos⟩ := ih hrest
      exact ⟨mem_cons_of_mem _ hmem, hpos⟩

/-- Every voter of the kind is present or absent. -/
theorem countP_counted (votes : List (ObjectGuid × RollVote)) :
    votes.countP (fun v => counted v.2) =
      (voters w allowedMap counted votes).length + absent w allowedMap counted votes := by
  unfold voters absent
  rw [← countP_eq_length_filter]
  induction votes with
  | nil => rfl
  | cons v votes ih =>
    simp only [countP_cons]
    rw [ih]
    cases counted v.2 <;> cases w.isPresent allowedMap v.1 <;> simp <;> omega

/-- The loop takes the absent voters from the counter, lets the present ones roll in order, and
remembers the first of the highest numbers. -/
theorem foldl_round (votes : List (ObjectGuid × RollVote)) (c : Counting) :
    votes.foldl (Counting.round w allowedMap counted) c =
      { total := c.total - UInt8.ofNat (absent w allowedMap counted votes)
        drawn := c.drawn + (voters w allowedMap counted votes).length
        rolled := c.rolled ++ draws w c.drawn (voters w allowedMap counted votes)
        max := (draws w c.drawn (voters w allowedMap counted votes)).foldl
          (improve Rolled.rank) c.max } := by
  induction votes generalizing c with
  | nil => simp [draws, voters, absent]
  | cons v votes ih =>
    rw [foldl_cons, ih]
    unfold Counting.round voters absent
    rw [filter_cons, countP_cons]
    cases hcounted : counted v.2 with
    | false => rfl
    | true =>
      cases hpresent : w.isPresent allowedMap v.1 with
      | false =>
        simp only [Bool.not_true, Bool.not_false, Bool.and_false, Bool.and_true,
          Bool.false_eq_true, if_false, if_true, Counting.mk.injEq, and_true]
        rw [UInt8.ofNat_add]
        grind
      | true =>
        simp only [Bool.not_true, Bool.and_false, Bool.and_true, Bool.false_eq_true, if_false,
          if_true, Nat.add_zero, draws_cons, length_cons, append_assoc,
          singleton_append, foldl_cons, Counting.mk.injEq, true_and]
        exact ⟨by omega, rfl⟩

/-- The votes, in map order, are those of the map. -/
theorem countP_votes (r : Roll) (counted : RollVote → Bool) :
    r.votes.countP (fun v => counted v.2) = CountedMap.count counted r.playerVote := by
  unfold Roll.votes CountedMap.count
  rw [(perm_insertionSort _ _).countP_eq, countP_map]
  rfl

/-- What is left of a counter that was right is the number of present voters. -/
theorem total_sub_absent {votes : List (ObjectGuid × RollVote)} {total : UInt8}
    (htotal : total.toNat = votes.countP fun v => counted v.2) :
    (total - UInt8.ofNat (absent w allowedMap counted votes)).toNat =
      (voters w allowedMap counted votes).length := by
  rw [@countP_counted w allowedMap] at htotal
  have hlt := total.toNat_lt
  have hle : UInt8.ofNat (absent w allowedMap counted votes) ≤ total := by
    rw [UInt8.le_iff_toNat_le, UInt8.toNat_ofNat']
    exact Nat.le_trans (Nat.mod_le _ _) (by omega)
  rw [UInt8.toNat_sub_of_le _ _ hle, UInt8.toNat_ofNat', Nat.mod_eq_of_lt (by omega)]
  omega

/-- Present voters have a GUID. -/
theorem ne_zero_of_mem_voters {votes : List (ObjectGuid × RollVote)} {v : ObjectGuid × RollVote}
    (h : v ∈ voters w allowedMap counted votes) :
    v.1 ≠ 0 ∧ (w.findConnectedPlayer v.1).isSome ∧ counted v.2 = true ∧ v ∈ votes := by
  unfold voters at h
  rw [mem_filter, Bool.and_eq_true] at h
  obtain ⟨hmem, hcounted, hpresent⟩ := h
  unfold RollWorld.isPresent RollWorld.findPlayer at hpresent
  unfold RollWorld.findConnectedPlayer
  cases hfind : w.find v.1 with
  | none =>
    rw [hfind] at hpresent
    cases hpresent
  | some player =>
    refine ⟨fun hzero => ?_, rfl, hcounted, hmem⟩
    rw [hzero, w.find_empty] at hfind
    cases hfind

/-! ### One kind of vote -/

variable {roll : ItemRoll} {total : UInt8} {drawn : Nat} {o : Outcome}

/-- Without present voters the counter is used up and nothing is done. -/
theorem countVotes_of_voters_nil (htotal : total.toNat = roll.votes.countP fun v => counted v.2)
    (hnone : voters w allowedMap counted roll.votes = []) :
    countVotes w allowedMap roll counted total drawn o = some (0, drawn, o) := by
  unfold countVotes
  split
  · rw [foldl_round, hnone]
    simp [draws]
  · next hskip =>
    have hzero : total.toNat = 0 := by
      by_cases hpos : total > 0
      · have hvotes : roll.votes = [] := by
          by_contra hne
          exact hskip ⟨hpos, hne⟩
        rw [htotal, hvotes]
        rfl
      · exact Nat.eq_zero_of_not_pos hpos
    have htotal' : total = 0 := UInt8.toNat_inj.mp hzero
    rw [htotal']

/-- With present voters the first with the highest number wins. -/
theorem countVotes_of_voters_ne_nil
    (htotal : total.toNat = roll.votes.countP fun v => counted v.2)
    (hsome : voters w allowedMap counted roll.votes ≠ []) :
    ∃ win left drawn', left ≠ 0 ∧
      IsFirstMax Rolled.rank (draws w drawn (voters w allowedMap counted roll.votes)) win ∧
      countVotes w allowedMap roll counted total drawn o =
        (award w roll win { o with
          rolled := o.rolled ++ draws w drawn (voters w allowedMap counted roll.votes)
          won := o.won ++ [win] }).map fun o => (left, drawn', o) := by
  have hlength := length_pos_iff.mpr hsome
  have hdraws : draws w drawn (voters w allowedMap counted roll.votes) ≠ [] := by
    intro hnil
    have hzero := congrArg length hnil
    unfold draws at hzero
    rw [length_mapIdx] at hzero
    exact Nat.ne_of_gt hlength hzero
  have hfirst : IsFirstMax Rolled.rank (draws w drawn (voters w allowedMap counted roll.votes))
      ((draws w drawn (voters w allowedMap counted roll.votes)).foldl (improve Rolled.rank)
        ⟨0, .NOT_VALID, 0⟩) :=
    isFirstMax_foldl_improve hdraws fun r hr => (mem_draws hr).2
  have hleft := @total_sub_absent w allowedMap counted roll.votes total htotal
  refine ⟨_, total - UInt8.ofNat (absent w allowedMap counted roll.votes),
    drawn + (voters w allowedMap counted roll.votes).length, fun hzero => ?_, hfirst, ?_⟩
  · rw [hzero] at hleft
    exact Nat.ne_of_gt hlength hleft.symm
  · have hguid := (ne_zero_of_mem_voters (mem_draws hfirst.mem).1).1
    have hpos : total > 0 := by
      rw [@countP_counted w allowedMap] at htotal
      show (0 : UInt8).toNat < total.toNat
      rw [htotal]
      exact Nat.add_pos_left hlength _
    have hvotes : roll.votes ≠ [] := by
      rintro hnil
      rw [hnil] at hsome
      exact hsome rfl
    unfold countVotes
    rw [if_pos ⟨hpos, hvotes⟩, foldl_round]
    exact if_pos hguid

/-! ### The item -/

variable {loot : Looting.Loot} {item : Looting.LootItem}

/-- A write to a slot is read there, and nowhere else. -/
theorem slotItem_setSlotItem (hitem : slotItem loot roll.itemSlot = some item)
    (new : Looting.LootItem) (slot : UInt8) :
    slotItem (setSlotItem loot roll.itemSlot new) slot =
      if slot = roll.itemSlot then some new else slotItem loot slot := by
  unfold slotItem at hitem ⊢
  unfold setSlotItem
  by_cases heq : slot = roll.itemSlot
  · rw [if_pos heq, heq]
    by_cases hquest : roll.itemSlot.toNat ≥ loot.items.length
    · rw [if_pos hquest] at hitem ⊢
      have hlt := (List.getElem?_eq_some_iff.mp hitem).1
      dsimp only
      rw [if_pos hquest]
      exact getElem?_set_self hlt
    · rw [if_neg hquest] at hitem ⊢
      have hlt := (List.getElem?_eq_some_iff.mp hitem).1
      dsimp only
      rw [length_set, if_neg hquest]
      exact getElem?_set_self hlt
  · rw [if_neg heq]
    have hne : slot.toNat ≠ roll.itemSlot.toNat := fun h => heq (UInt8.toNat_inj.mp h)
    by_cases hquest : roll.itemSlot.toNat ≥ loot.items.length
    · rw [if_pos hquest]
      dsimp only
      split
      · exact getElem?_set_ne (by omega)
      · rfl
    · rw [if_neg hquest]
      dsimp only
      rw [length_set]
      split
      · rfl
      · exact getElem?_set_ne (Ne.symm hne)

/-- The winner gets the item, or what it disenchants into. -/
def RollWorld.takesItem (w : RollWorld) (roll : ItemRoll) (item : Looting.LootItem)
    (win : Rolled) : Bool :=
  win.vote == .DISENCHANT || w.canStoreNewItem win.guid roll.itemid item.count

/-- The roll is won: the winner gets the item, which is looted once, or his bags are full, and
the item waits for him. -/
structure Decided (w : RollWorld) (roll : ItemRoll) (loot : Looting.Loot)
    (item : Looting.LootItem) (win : Rolled) (o : Outcome) : Prop where
  won : o.won = [win]
  notPassed : o.allPassed = false
  slot : slotItem o.loot roll.itemSlot = some (if w.takesItem roll item win then
    { item with is_looted := true }
    else { item with is_blocked := false, rollWinnerGUID := win.guid })
  unlooted : o.loot.unlootedCount = if w.takesItem roll item win then loot.unlootedCount - 1
    else loot.unlootedCount
  stored : o.stored = if win.vote = .DISENCHANT ∨ ¬w.takesItem roll item win then []
    else [(win.guid, roll.itemid, item.count)]
  disenchanted : o.disenchanted = if win.vote = .DISENCHANT then
    [(win.guid, w.canStoreNewItem win.guid roll.itemid item.count)] else []
  others : ∀ slot, slot ≠ roll.itemSlot → slotItem o.loot slot = slotItem loot slot

/-- Nobody wins: the item is unblocked, and nothing else happens. -/
structure Passed (roll : ItemRoll) (loot : Looting.Loot) (item : Looting.LootItem) (o : Outcome) :
    Prop where
  won : o.won = []
  allPassed : o.allPassed = true
  slot : slotItem o.loot roll.itemSlot = some { item with is_blocked := false }
  unlooted : o.loot.unlootedCount = loot.unlootedCount
  stored : o.stored = []
  disenchanted : o.disenchanted = []
  others : ∀ slot, slot ≠ roll.itemSlot → slotItem o.loot slot = slotItem loot slot

theorem unlootedCount_setSlotItem (loot : Looting.Loot) (slot : UInt8)
    (new : Looting.LootItem) :
    (setSlotItem loot slot new).unlootedCount = loot.unlootedCount := by
  unfold setSlotItem
  split <;> rfl

/-- A winner who is found decides the roll. -/
theorem award_spec {win : Rolled} (hitem : slotItem loot roll.itemSlot = some item)
    (htemplate : w.getItemTemplate roll.itemid = true)
    (hfound : (w.findConnectedPlayer win.guid).isSome) (rolled : List Rolled) :
    ∃ o, award w roll win { loot, rolled, won := [win] } = some o ∧
      Decided w roll loot item win o := by
  obtain ⟨player, hplayer⟩ := Option.isSome_iff_exists.mp hfound
  have hslot := slotItem_setSlotItem hitem
  have hread : ∀ new, slotItem (setSlotItem loot roll.itemSlot new) roll.itemSlot = some new :=
    fun new => (hslot new roll.itemSlot).trans (if_pos rfl)
  have hothers : ∀ new slot, slot ≠ roll.itemSlot →
      slotItem (setSlotItem loot roll.itemSlot new) slot = slotItem loot slot :=
    fun new slot hne => (hslot new slot).trans (if_neg hne)
  unfold award
  rw [hplayer]
  dsimp only
  rw [hitem]
  dsimp only
  by_cases hvote : win.vote = .DISENCHANT
  · have htakes : w.takesItem roll item win = true := by simp [RollWorld.takesItem, hvote]
    rw [if_pos hvote, if_pos htemplate]
    refine ⟨_, rfl, rfl, rfl, ?_, ?_, ?_, ?_, hothers _⟩
    · rw [if_pos htakes]
      exact hread _
    · rw [if_pos htakes]
      rfl
    · rw [if_pos (.inl hvote)]
    · rw [if_pos hvote]
      rfl
  · rw [if_neg hvote]
    have htakes : w.takesItem roll item win = w.canStoreNewItem win.guid roll.itemid item.count := by
      simp [RollWorld.takesItem, hvote]
    split
    · next hstores =>
      rw [← htakes] at hstores
      refine ⟨_, rfl, rfl, rfl, ?_, ?_, ?_, ?_, hothers _⟩
      · rw [if_pos hstores]
        exact hread _
      · rw [if_pos hstores]
        rfl
      · rw [if_neg (by simp [hvote, hstores])]
        rfl
      · rw [if_neg hvote]
    · next hfull =>
      rw [← htakes] at hfull
      refine ⟨_, rfl, rfl, rfl, ?_, ?_, ?_, ?_, hothers _⟩
      · rw [if_neg hfull]
        exact hread _
      · rw [if_neg hfull]
        exact unlootedCount_setSlotItem loot _ _
      · rw [if_pos (.inr hfull)]
      · rw [if_neg hvote]

/-- When all have passed the item is unblocked. -/
theorem allPassed_spec (hitem : slotItem loot roll.itemSlot = some item) (rolled : List Rolled) :
    ∃ o, allPassed roll { loot, rolled } = some o ∧ Passed roll loot item o := by
  have hslot := slotItem_setSlotItem hitem { item with is_blocked := false }
  unfold allPassed
  dsimp only
  rw [hitem]
  refine ⟨_, rfl, rfl, rfl, ?_, ?_, rfl, rfl, fun slot hne => ?_⟩
  · rw [hslot, if_pos rfl]
  · exact unlootedCount_setSlotItem loot _ _
  · rw [hslot, if_neg hne]

/-! ### The whole roll -/

/-- Someone who is present has voted so: the first of them with the highest number wins, with
his own vote. -/
def WonBy (w : RollWorld) (allowedMap : Option Nat) (roll : ItemRoll) (counted : RollVote → Bool)
    (loot : Looting.Loot) (item : Looting.LootItem) (o : Outcome) : Prop :=
  ∃ win, IsFirstMax Rolled.rank (draws w 0 (voters w allowedMap counted roll.votes)) win ∧
    (win.guid, win.vote) ∈ roll.votes ∧ counted win.vote = true ∧ Decided w roll loot item win o

/-- One kind of vote, when no kind before it had a present voter. -/
theorem countVotes_wonBy (htotal : total.toNat = roll.votes.countP fun v => counted v.2)
    (hitem : slotItem loot roll.itemSlot = some item)
    (htemplate : w.getItemTemplate roll.itemid = true)
    (hsome : voters w allowedMap counted roll.votes ≠ []) :
    ∃ left drawn' o, left ≠ 0 ∧
      countVotes w allowedMap roll counted total 0 { loot } = some (left, drawn', o) ∧
      WonBy w allowedMap roll counted loot item o := by
  obtain ⟨win, left, drawn', hleft, hfirst, heq⟩ :=
    @countVotes_of_voters_ne_nil w allowedMap counted roll total 0 { loot } htotal hsome
  obtain ⟨-, hfound, hcounted, hmem⟩ := ne_zero_of_mem_voters (mem_draws hfirst.mem).1
  obtain ⟨o, haward, hdecided⟩ := award_spec hitem htemplate hfound
    (draws w 0 (voters w allowedMap counted roll.votes))
  refine ⟨left, drawn', o, hleft, ?_, win, hfirst, hmem, hcounted, hdecided⟩
  rw [heq]
  exact congrArg (Option.map fun o => (left, drawn', o)) haward

/-- A counted roll is removed, and won by the first present player with the highest number among
those who need the item, or else among those who want it, or disenchant it, for greed, or else
by nobody. -/
theorem countTheRoll_decides (w : RollWorld) (allowedMap : Option Nat) (g : Group)
    (roll : ItemRoll) (loot : Looting.Loot) (item : Looting.LootItem) (hdistinct : g.Distinct)
    (hcounted : roll.toRoll.Counted) (hitem : slotItem loot roll.itemSlot = some item)
    (htemplate : w.getItemTemplate roll.itemid = true) :
    ∃ g' o, g.countTheRollOf w allowedMap roll (some loot) = some (g', some o) ∧
      ¬g'.Pending roll.itemGUID ∧
      (voters w allowedMap (· == .NEED) roll.votes ≠ [] ∧
          WonBy w allowedMap roll (· == .NEED) loot item o ∨
        voters w allowedMap (· == .NEED) roll.votes = [] ∧
          voters w allowedMap RollVote.isGreed roll.votes ≠ [] ∧
          WonBy w allowedMap roll RollVote.isGreed loot item o ∨
        voters w allowedMap (· == .NEED) roll.votes = [] ∧
          voters w allowedMap RollVote.isGreed roll.votes = [] ∧ Passed roll loot item o) := by
  have hremoved : ¬(g.countTheRoll roll.itemGUID).Pending roll.itemGUID := by
    rintro ⟨r, hr, hguid⟩
    exact ((Group.mem_countTheRoll hdistinct roll.itemGUID r).mp hr).2 hguid
  have hneed : roll.totalNeed.toNat = roll.votes.countP fun v => v.2 == .NEED := by
    rw [hcounted.need, countP_votes roll.toRoll (· == .NEED)]
  have hgreed : roll.totalGreed.toNat = roll.votes.countP fun v => v.2.isGreed := by
    rw [hcounted.greed, countP_votes roll.toRoll RollVote.isGreed]
  have hcount : ∀ o, countRoll w allowedMap roll loot = some o →
      g.countTheRollOf w allowedMap roll (some loot) =
        some (g.countTheRoll roll.itemGUID, some o) := by
    intro o ho
    unfold Group.countTheRollOf
    dsimp only
    rw [ho]
    rfl
  by_cases hneeders : voters w allowedMap (· == .NEED) roll.votes = []
  · have hfirst := @countVotes_of_voters_nil w allowedMap (· == .NEED) roll roll.totalNeed 0
      { loot } hneed hneeders
    by_cases hgreeders : voters w allowedMap RollVote.isGreed roll.votes = []
    · obtain ⟨o, hall, hpassed⟩ := allPassed_spec hitem []
      refine ⟨_, o, hcount o ?_, hremoved, .inr (.inr ⟨hneeders, hgreeders, hpassed⟩)⟩
      unfold countRoll
      rw [hfirst]
      dsimp only
      split
      · rw [@countVotes_of_voters_nil w allowedMap RollVote.isGreed roll roll.totalGreed 0
          { loot } hgreed hgreeders]
        exact hall
      · next hnot =>
        have hzero : roll.totalGreed = 0 := by
          apply UInt8.toNat_inj.mp
          apply Nat.eq_zero_of_not_pos
          exact fun hpos => hnot ⟨rfl, hpos⟩
        rw [if_pos ⟨rfl, hzero⟩]
        exact hall
    · obtain ⟨left, drawn', o, hleft, heq, hwon⟩ :=
        countVotes_wonBy hgreed hitem htemplate hgreeders
      refine ⟨_, o, hcount o ?_, hremoved, .inr (.inl ⟨hneeders, hgreeders, hwon⟩)⟩
      have hpos : roll.totalGreed > 0 := by
        rw [@countP_counted w allowedMap] at hgreed
        show (0 : UInt8).toNat < roll.totalGreed.toNat
        rw [hgreed]
        exact Nat.add_pos_left (length_pos_iff.mpr hgreeders) _
      unfold countRoll
      rw [hfirst]
      dsimp only
      rw [if_pos ⟨rfl, hpos⟩, heq]
      exact if_neg hleft
  · obtain ⟨left, drawn', o, hleft, heq, hwon⟩ := countVotes_wonBy hneed hitem htemplate hneeders
    refine ⟨_, o, hcount o ?_, hremoved, .inl ⟨hneeders, hwon⟩⟩
    unfold countRoll
    rw [heq]
    dsimp only
    rw [if_neg fun h => hleft h.1, if_neg fun h => hleft h.1]

/-- Two players in the world who roll the same. -/
def twoRollers : RollWorld where
  find guid := if guid = 1 ∨ guid = 2 then some ⟨true, some 0⟩ else none
  find_empty := rfl
  urand _ := 7
  urand_mem _ := by decide
  canStoreNewItem _ _ _ := true
  getItemTemplate _ := true

/-- One needs the item, the other is greedy. -/
def needAndGreed : ItemRoll where
  itemGUID := 9
  playerVote := (AList.insert 2 .GREED ∅).insert 1 .NEED
  totalPlayersRolling := 2
  totalNeed := 1
  totalGreed := 1
  itemid := 25
  itemSlot := 0

theorem countTheRoll_decides_needAndGreed :
    ∃ g' o, ({ rolls := [needAndGreed.toRoll] } : Group).countTheRollOf twoRollers none
        needAndGreed (some { items := [{ itemid := 25, count := 1, is_blocked := true }] }) =
        some (g', some o) ∧ ¬g'.Pending needAndGreed.itemGUID ∧
      (voters twoRollers none (· == .NEED) needAndGreed.votes ≠ [] ∧
          WonBy twoRollers none needAndGreed (· == .NEED)
            { items := [{ itemid := 25, count := 1, is_blocked := true }] }
            { itemid := 25, count := 1, is_blocked := true } o ∨
        voters twoRollers none (· == .NEED) needAndGreed.votes = [] ∧
          voters twoRollers none RollVote.isGreed needAndGreed.votes ≠ [] ∧
          WonBy twoRollers none needAndGreed RollVote.isGreed
            { items := [{ itemid := 25, count := 1, is_blocked := true }] }
            { itemid := 25, count := 1, is_blocked := true } o ∨
        voters twoRollers none (· == .NEED) needAndGreed.votes = [] ∧
          voters twoRollers none RollVote.isGreed needAndGreed.votes = [] ∧
          Passed needAndGreed { items := [{ itemid := 25, count := 1, is_blocked := true }] }
            { itemid := 25, count := 1, is_blocked := true } o) :=
  countTheRoll_decides twoRollers none { rolls := [needAndGreed.toRoll] } needAndGreed
    { items := [{ itemid := 25, count := 1, is_blocked := true }] }
    { itemid := 25, count := 1, is_blocked := true } (nodup_singleton _)
    ⟨rfl, rfl, rfl, rfl⟩ rfl rfl

end TrinityCore.Groups
