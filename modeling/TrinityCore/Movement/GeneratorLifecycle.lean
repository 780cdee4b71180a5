import Mathlib.Algebra.Order.BigOperators.Group.Finset
import TrinityCore.Movement.MotionStack

/-!
# The life of movement generators

Every operation moves generators between the slots, the expire list and the trash, so that what is
held of a generator is what was handed in. What goes wrong is the moment: only the generator in
the top slot is put off while the update flag is set, and the one that is updating need not be
there any more.
-/

namespace TrinityCore.Movement

open List MotionMaster

variable {after : MotionMaster}

namespace MotionMaster

variable {master : MotionMaster} {delayed : Bool} {curr m selected g : MovementGenerator}
  {slot : Nat}

/-- How many slots hold a generator. -/
def slotCount (master : MotionMaster) (g : MovementGenerator) : Nat :=
  ∑ i ∈ Finset.range maxMotionSlot, if master.slot i = some g then 1 else 0

/-- How often a generator was deleted. -/
def deletes (master : MotionMaster) (g : MovementGenerator) : Nat := master.log.count (.onDelete g)

/-- How often a generator was finalized. -/
def finalizes (master : MotionMaster) (g : MovementGenerator) : Nat :=
  master.log.count (.onFinalize g)

/-- How often a generator is in a slot, is listed or was deleted. -/
def holdings (master : MotionMaster) (g : MovementGenerator) : Nat :=
  master.slotCount g + master.expireList.count g + master.deletes g

/-- What a slot contributes. -/
theorem slotCount_setSlot (hslot : slot < maxMotionSlot) (movement : Option MovementGenerator) :
    (master.setSlot slot movement).slotCount g + (if master.slot slot = some g then 1 else 0) =
      master.slotCount g + if movement = some g then 1 else 0 := by
  have hother : ∀ i, i ≠ slot → (master.setSlot slot movement).slot i = master.slot i :=
    fun i hne => Function.update_of_ne hne _ _
  have hself : (master.setSlot slot movement).slot slot = movement := Function.update_self ..
  have hmem : slot ∈ Finset.range maxMotionSlot := Finset.mem_range.mpr hslot
  have hrest : ∑ i ∈ (Finset.range maxMotionSlot).erase slot,
      (if (master.setSlot slot movement).slot i = some g then 1 else 0) =
      ∑ i ∈ (Finset.range maxMotionSlot).erase slot,
        if master.slot i = some g then 1 else 0 := by
    apply Finset.sum_congr rfl
    intro i hi
    rw [hother i (Finset.ne_of_mem_erase hi)]
  unfold slotCount
  rw [← Finset.add_sum_erase _ _ hmem, ← Finset.add_sum_erase _ _ hmem, hrest, hself]
  omega

/-- Operations hold what they held, and finalize what they delete. -/
structure Conserves (before after : MotionMaster) : Prop where
  holdings : ∀ g, g ≠ .idle → after.holdings g = before.holdings g
  finalizes : ∀ g, after.finalizes g + before.deletes g = before.finalizes g + after.deletes g

theorem Conserves.refl (master : MotionMaster) : Conserves master master :=
  ⟨fun _ _ => rfl, fun _ => rfl⟩

theorem Conserves.trans {a b c : MotionMaster} (h : Conserves a b) (h' : Conserves b c) :
    Conserves a c := by
  refine ⟨fun g hg => (h'.holdings g hg).trans (h.holdings g hg), fun g => ?_⟩
  have hfirst := h.finalizes g
  have hsecond := h'.finalizes g
  omega

/-- Nothing but the top and the flags differ. -/
theorem conserves_of_eq (hslot : after.slot = master.slot)
    (hlist : after.expireList = master.expireList) (hlog : after.log = master.log) :
    Conserves master after := by
  refine ⟨fun g _ => ?_, fun g => ?_⟩
  · unfold holdings slotCount deletes
    rw [hslot, hlist, hlog]
  · unfold finalizes deletes
    rw [hlog]

theorem conserves_onInitialize (movement : MovementGenerator) :
    Conserves master (master.call (.onInitialize movement)) := by
  refine ⟨fun g _ => ?_, fun g => ?_⟩
  · unfold holdings slotCount deletes call
    simp
  · unfold finalizes deletes call
    simp

theorem conserves_onReset (movement : MovementGenerator) :
    Conserves master (master.call (.onReset movement)) := by
  refine ⟨fun g _ => ?_, fun g => ?_⟩
  · unfold holdings slotCount deletes call
    simp
  · unfold finalizes deletes call
    simp

/-! ### Deletions -/

theorem deletes_delayed : (master.discard true curr).deletes g = master.deletes g := by
  show (master.delayedDelete curr).deletes g = master.deletes g
  unfold delayedDelete
  split <;> rfl

theorem deletes_direct (hg : g ≠ .idle) :
    (master.discard false curr).deletes g = master.deletes g + if curr = g then 1 else 0 := by
  unfold discard directDelete MovementGenerator.isStatic deletes call
  by_cases hidle : curr = .idle
  · subst hidle
    rw [if_neg (Ne.symm hg)]
    rfl
  · by_cases heq : curr = g
    · subst heq
      simp [hidle]
    · simp [hidle, heq]

theorem holdings_discard (hg : g ≠ .idle) :
    (master.discard delayed curr).holdings g = master.holdings g + if curr = g then 1 else 0 := by
  have hslots : (master.discard delayed curr).slotCount g = master.slotCount g := by
    unfold slotCount
    rw [slot_discard]
  unfold holdings
  rw [hslots, expireList_discard]
  cases delayed with
  | true =>
    rw [deletes_delayed]
    by_cases heq : curr = g
    · subst heq
      simp [hg]
      omega
    · by_cases hidle : curr = .idle <;> simp [hidle, heq]
      exact fun hsame => absurd hsame.symm hg
  | false =>
    rw [deletes_direct hg]
    simp only [Bool.false_eq_true, false_and, if_false]
    omega

theorem finalizes_discard : (master.discard delayed curr).finalizes g + master.deletes g =
    master.finalizes g + (master.discard delayed curr).deletes g := by
  unfold discard delayedDelete directDelete finalizes deletes call
  split
  · split <;> rfl
  · split
    · rfl
    · by_cases heq : curr = g
      · simp [heq]
        omega
      · simp [heq]

/-- A generator that leaves its slot is listed or deleted. -/
theorem conserves_take (hcurr : master.slot slot = some curr) (hslot : slot < maxMotionSlot)
    (delayed : Bool) : Conserves master ((master.setSlot slot none).discard delayed curr) := by
  refine ⟨fun g hg => ?_, fun g => ?_⟩
  · have hcount := @slotCount_setSlot master g slot hslot none
    rw [hcurr] at hcount
    rw [holdings_discard hg]
    unfold holdings
    have hlist : (master.setSlot slot none).expireList = master.expireList := rfl
    have hdeletes : (master.setSlot slot none).deletes g = master.deletes g := rfl
    rw [hlist, hdeletes]
    by_cases heq : curr = g
    · subst heq
      simp at hcount ⊢
      omega
    · simp [heq] at hcount ⊢
      omega
  · exact @finalizes_discard (master.setSlot slot none) delayed curr g

theorem conserves_lowerTop (master : MotionMaster) : Conserves master master.lowerTop :=
  conserves_of_eq rfl rfl rfl

/-! ### What operations hold -/

theorem Shape.conserves_popTop (h : Shape master) (hne : master.size ≠ 0) (delayed : Bool) :
    Conserves master (master.popTop delayed) := by
  obtain ⟨curr, htop⟩ := h.top_eq_some hne
  have hslot : master.size - 1 < maxMotionSlot := by
    have := h.bound
    omega
  have htaken := @conserves_take master curr (master.size - 1) htop hslot delayed
  have hpop : master.popTop delayed =
      ((master.setSlot (master.size - 1) none).lowerTop).discard delayed curr := by
    unfold MotionMaster.popTop MotionMaster.pop
    rw [htop, if_neg hne]
  rw [hpop]
  apply htaken.trans
  unfold discard directDelete delayedDelete
  split <;> split <;> exact conserves_of_eq rfl rfl rfl

theorem Shape.conserves_popAbove (h : Shape master) (bound fuel : Nat) (delayed : Bool) :
    Conserves master (popAbove delayed bound fuel master) := by
  induction fuel generalizing master with
  | zero => exact Conserves.refl master
  | succ fuel ih =>
    unfold popAbove
    split
    · next hlt => exact (h.conserves_popTop (by omega) delayed).trans (ih h.popTop)
    · exact Conserves.refl master

theorem conserves_makeRoom (hslot : slot < maxMotionSlot) :
    Conserves master (master.makeRoom slot) := by
  unfold makeRoom
  split
  · next curr hcurr => exact conserves_take hcurr hslot _
  · split
    · exact conserves_of_eq rfl rfl rfl
    · exact Conserves.refl master

theorem finalizes_install : (master.install m slot).finalizes g = master.finalizes g := by
  unfold install finalizes
  dsimp only
  split
  · rfl
  · unfold call
    simp
    rfl

theorem deletes_install : (master.install m slot).deletes g = master.deletes g := by
  unfold install deletes
  dsimp only
  split
  · rfl
  · unfold call
    simp
    rfl

theorem holdings_install (hslot : slot < maxMotionSlot) (hnone : master.slot slot = none) :
    (master.install m slot).holdings g = master.holdings g + if m = g then 1 else 0 := by
  have hcount := @slotCount_setSlot master g slot hslot (some m)
  have hslots : (master.install m slot).slotCount g =
      (master.setSlot slot (some m)).slotCount g := by
    unfold slotCount
    rw [slot_install]
    rfl
  rw [hnone] at hcount
  unfold holdings
  rw [hslots, expireList_install, deletes_install]
  simp at hcount ⊢
  omega

/-- What is held of a generator is what was handed in. -/
structure Accounted (master : MotionMaster) : Prop where
  holdings : ∀ g, g ≠ .idle → master.holdings g = master.handed.count g
  finalizes : ∀ g, master.finalizes g = master.deletes g

theorem Accounted.of_conserves (h : Accounted master) (hconserves : Conserves master after)
    (hhanded : after.handed = master.handed) : Accounted after := by
  refine ⟨fun g hg => ?_, fun g => ?_⟩
  · rw [hconserves.holdings g hg, hhanded]
    exact h.holdings g hg
  · have hkept := hconserves.finalizes g
    have hbefore := h.finalizes g
    omega

@[simp] theorem handed_makeRoom : (master.makeRoom slot).handed = master.handed := by
  unfold makeRoom
  split
  · exact handed_discard
  · split <;> rfl

@[simp] theorem handed_install : (master.install m slot).handed = master.handed := by
  unfold install
  dsimp only
  split <;> rfl

@[simp] theorem handed_mutate : (master.mutate m slot).handed = m :: master.handed := by
  unfold mutate
  simp

theorem Accounted.mutate (h : Accounted master) (m : MovementGenerator)
    (hslot : slot < maxMotionSlot) : Accounted (master.mutate m slot) := by
  have hroom := @conserves_makeRoom { master with handed := m :: master.handed } slot hslot
  have hempty : ({ master with handed := m :: master.handed }.makeRoom slot).slot slot = none := by
    rw [slot_makeRoom, Function.update_self]
  refine ⟨fun g hg => ?_, fun g => ?_⟩
  · have hheld : (master.mutate m slot).holdings g =
        master.holdings g + if m = g then 1 else 0 := by
      unfold MotionMaster.mutate
      rw [holdings_install hslot hempty, hroom.holdings g hg]
      rfl
    rw [hheld, handed_mutate, count_cons, h.holdings g hg]
    simp
  · have hkept := hroom.finalizes g
    have hbefore := h.finalizes g
    unfold MotionMaster.mutate
    rw [finalizes_install, deletes_install]
    have hfinalizes : ({ master with handed := m :: master.handed } : MotionMaster).finalizes g =
        master.finalizes g := rfl
    have hdeletes : ({ master with handed := m :: master.handed } : MotionMaster).deletes g =
        master.deletes g := rfl
    omega

theorem Shape.conserves_cleanSlot (h : Shape master) (slot : Nat) (delayed : Bool) :
    Conserves master (master.cleanSlot delayed slot) := by
  unfold MotionMaster.cleanSlot
  split
  · exact conserves_lowerTop master
  · next motion hmotion =>
    have hslot : slot < maxMotionSlot := by
      by_contra hge
      have habove := h.above slot (by have := h.bound; omega)
      exact nomatch habove.symm.trans hmotion
    exact (conserves_take hmotion hslot delayed).trans (conserves_lowerTop _)

theorem Shape.conserves_expire (h : Shape master) (delayed : Bool) :
    Conserves master (master.expire delayed) := by
  unfold MotionMaster.expire
  split
  · next hlt => exact (h.conserves_popTop (by omega) delayed).trans (conserves_lowerTop _)
  · exact conserves_lowerTop master

/-- What is listed is deleted. -/
theorem foldl_directDelete_counts (movements : List MovementGenerator) (master : MotionMaster)
    (hg : g ≠ .idle) :
    (movements.foldl directDelete master).deletes g = master.deletes g + movements.count g := by
  induction movements generalizing master with
  | nil => rfl
  | cons movement movements ih =>
    have hfirst : master.directDelete movement = master.discard false movement := rfl
    rw [foldl_cons, hfirst, ih, deletes_direct hg, count_cons]
    simp only [beq_iff_eq]
    omega

theorem foldl_directDelete_finalizes (movements : List MovementGenerator) (master : MotionMaster) :
    (movements.foldl directDelete master).finalizes g + master.deletes g =
      master.finalizes g + (movements.foldl directDelete master).deletes g := by
  induction movements generalizing master with
  | nil => rfl
  | cons movement movements ih =>
    have hfirst : master.directDelete movement = master.discard false movement := rfl
    rw [foldl_cons, hfirst]
    have hone := @finalizes_discard master false movement g
    have hrest := ih (master.discard false movement)
    omega

/-- The listed generators are deleted and the list is emptied. -/
def deleteListed (master : MotionMaster) : MotionMaster :=
  { master.expireList.foldl directDelete master with expireList := [] }

theorem conserves_deleteListed (master : MotionMaster) :
    Conserves master master.deleteListed := by
  refine ⟨fun g hg => ?_, fun g => ?_⟩
  · have hdeletes := foldl_directDelete_counts master.expireList master hg
    have hslots : master.deleteListed.slotCount g = master.slotCount g := by
      unfold slotCount
      rw [show master.deleteListed.slot = master.slot from
        (foldl_directDelete master.expireList master).1]
    unfold holdings
    rw [hslots, show master.deleteListed.deletes g =
      (master.expireList.foldl directDelete master).deletes g from rfl, hdeletes]
    show _ + count g [] + _ = _
    simp
    omega
  · exact foldl_directDelete_finalizes master.expireList master

theorem handed_deleteListed (master : MotionMaster) : master.deleteListed.handed = master.handed := by
  have hfold : ∀ (movements : List MovementGenerator) (master : MotionMaster),
      (movements.foldl directDelete master).handed = master.handed := by
    intro movements
    induction movements with
    | nil => exact fun _ => rfl
    | cons movement movements ih =>
      intro master
      rw [foldl_cons, ih]
      exact @handed_discard master false movement
  exact hfold master.expireList master

@[simp] theorem handed_lowerTop : master.lowerTop.handed = master.handed := rfl

@[simp] theorem handed_pop : master.pop.handed = master.handed := by
  unfold pop
  split <;> rfl

@[simp] theorem handed_popTop : (master.popTop delayed).handed = master.handed := by
  unfold popTop
  split <;> simp

@[simp] theorem handed_popAbove (bound fuel : Nat) :
    (popAbove delayed bound fuel master).handed = master.handed := by
  induction fuel generalizing master with
  | zero => rfl
  | succ fuel ih =>
    unfold popAbove
    split
    · rw [ih, handed_popTop]
    · rfl

@[simp] theorem handed_cleanSlot : (master.cleanSlot delayed slot).handed = master.handed := by
  unfold cleanSlot
  split
  · rfl
  · rw [handed_lowerTop, handed_discard]
    rfl

@[simp] theorem handed_expire : (master.expire delayed).handed = master.handed := by
  unfold expire
  split <;> simp

/-! ### What operations delete -/

theorem deletes_mutate (hg : g ≠ .idle) : (master.mutate m slot).deletes g = master.deletes g +
    if master.slot slot = some g ∧ ¬(master.size = slot + 1 ∧ master.cleanFlag.update = true)
      then 1 else 0 := by
  unfold mutate
  rw [deletes_install]
  unfold makeRoom
  dsimp only
  cases hcurr : master.slot slot with
  | none =>
    have hnot : ¬(none = some g ∧ ¬(master.size = slot + 1 ∧ master.cleanFlag.update = true)) :=
      fun hand => nomatch hand.1
    dsimp only
    rw [if_neg hnot]
    split <;> rfl
  | some curr =>
    dsimp only
    by_cases hdelayed : master.size = slot + 1 ∧ master.cleanFlag.update = true
    · have hdecide : (decide (master.size = slot + 1) && master.cleanFlag.update) = true := by
        simp [hdelayed]
      rw [hdecide, deletes_delayed, if_neg fun hand => hand.2 hdelayed]
      rfl
    · have hdecide : (decide (master.size = slot + 1) && master.cleanFlag.update) = false := by
        rw [Bool.eq_false_iff]
        simpa using hdelayed
      rw [hdecide, deletes_direct hg]
      simp only [hdelayed, not_false_eq_true, and_true, Option.some_inj]
      rfl

theorem deletes_pop : master.pop.deletes g = master.deletes g := by
  unfold pop
  split <;> rfl

theorem deletes_popTop_delayed : (master.popTop true).deletes g = master.deletes g := by
  unfold popTop
  split
  · exact deletes_pop
  · rw [deletes_delayed]
    exact deletes_pop

theorem deletes_popTop_direct (hg : g ≠ .idle) : (master.popTop false).deletes g =
    master.deletes g + if master.top = some g then 1 else 0 := by
  unfold popTop
  split
  · next hnone =>
    rw [hnone, if_neg (by simp)]
    exact deletes_pop
  · next curr hcurr =>
    rw [deletes_direct hg, deletes_pop, hcurr]
    simp

theorem deletes_popAbove_delayed (bound fuel : Nat) :
    (popAbove true bound fuel master).deletes g = master.deletes g := by
  induction fuel generalizing master with
  | zero => rfl
  | succ fuel ih =>
    unfold popAbove
    split
    · rw [ih, deletes_popTop_delayed]
    · rfl

theorem expireList_popAbove_direct (bound fuel : Nat) :
    (popAbove false bound fuel master).expireList = master.expireList := by
  induction fuel generalizing master with
  | zero => rfl
  | succ fuel ih =>
    unfold popAbove
    split
    · rw [ih]
      unfold popTop
      split
      · exact expireList_pop
      · rw [expireList_discard, if_neg (by simp), expireList_pop]
    · rfl

/-- The loop deletes a generator exactly when a slot that it empties holds it. -/
theorem Shape.deletes_popAbove_direct (h : Shape master) (hg : g ≠ .idle) (bound : Nat) :
    (popAbove false bound master.size master).deletes g = master.deletes g ↔
      ∀ i, bound ≤ i → i < master.size → master.slot i ≠ some g := by
  have hpopped := @popAbove_spec master false h bound master.size (Nat.le_refl _)
  have hheld := (h.conserves_popAbove bound master.size false).holdings g hg
  have hbound := h.bound
  unfold holdings at hheld
  rw [expireList_popAbove_direct] at hheld
  have hslot : ∀ i, (popAbove false bound master.size master).slot i =
      if i < bound then master.slot i else none := by
    intro i
    split
    · next hi => exact hpopped.slot i hi
    · next hi => exact hpopped.shape.above i (Nat.le_trans hpopped.size_le (Nat.le_of_not_lt hi))
  constructor
  · intro hsame i hi hlt hcurr
    have hless : (popAbove false bound master.size master).slotCount g < master.slotCount g := by
      unfold slotCount
      apply Finset.sum_lt_sum
      · intro j _
        rw [hslot j]
        by_cases hj : j < bound <;> simp [hj]
      · refine ⟨i, Finset.mem_range.mpr (Nat.lt_of_lt_of_le hlt hbound), ?_⟩
        rw [hslot i, if_neg (Nat.not_lt.mpr hi), hcurr]
        simp
    omega
  · intro hnone
    have hsame : (popAbove false bound master.size master).slotCount g = master.slotCount g := by
      unfold slotCount
      apply Finset.sum_congr rfl
      intro j _
      rw [hslot j]
      by_cases hj : j < bound
      · rw [if_pos hj]
      · rw [if_neg hj]
        by_cases hlt : j < master.size
        · rw [if_neg (by simp), if_neg (hnone j (Nat.le_of_not_lt hj) hlt)]
        · rw [h.above j (Nat.le_of_not_lt hlt)]
    omega

theorem deletes_cleanSlot_delayed : (master.cleanSlot true slot).deletes g = master.deletes g := by
  unfold cleanSlot
  split
  · rfl
  · next motion hmotion => exact @deletes_delayed (master.setSlot slot none) motion g

theorem deletes_cleanSlot_direct (hg : g ≠ .idle) : (master.cleanSlot false slot).deletes g =
    master.deletes g + if master.slot slot = some g then 1 else 0 := by
  unfold cleanSlot
  split
  · next hnone =>
    rw [hnone, if_neg (by simp)]
    rfl
  · next motion hmotion =>
    have hdeletes := @deletes_direct (master.setSlot slot none) motion g hg
    rw [hmotion]
    simp only [Option.some_inj]
    exact hdeletes

theorem deletes_expire_delayed : (master.expire true).deletes g = master.deletes g := by
  unfold expire
  split
  · exact deletes_popTop_delayed
  · rfl

theorem deletes_expire_direct (hg : g ≠ .idle) : (master.expire false).deletes g =
    master.deletes g + if 1 < master.size ∧ master.top = some g then 1 else 0 := by
  unfold expire
  by_cases hlt : 1 < master.size
  · rw [if_pos hlt]
    simp only [hlt, true_and]
    exact deletes_popTop_direct hg
  · rw [if_neg hlt, if_neg fun hand => hlt hand.1]
    rfl

/-! ### Generators that are handed in -/

/-- An operation accounts for what it is handed, which is at most one generator. -/
structure Accounts (offered : MovementGenerator) (before after : MotionMaster) : Prop where
  shape : Shape after
  accounted : Accounted before → Accounted after
  handed : after.handed = before.handed ∨ after.handed = offered :: before.handed

theorem Shape.accounts_of_conserves (hshape : Shape after) (hconserves : Conserves master after)
    (hhanded : after.handed = master.handed) : Accounts selected master after :=
  ⟨hshape, fun h => h.of_conserves hconserves hhanded, .inl hhanded⟩

theorem Accounts.after_conserves {before mid : MotionMaster} (h : Accounts selected mid after)
    (hconserves : Conserves before mid) (hhanded : mid.handed = before.handed) :
    Accounts selected before after :=
  ⟨h.shape, fun haccounted => h.accounted (haccounted.of_conserves hconserves hhanded),
    by rw [← hhanded]; exact h.handed⟩

/-- What the end of a direct operation does to the accounts. -/
structure RestoredAccounts (selected : MovementGenerator) (before after : MotionMaster) : Prop where
  accounts : Accounts selected before after
  handed : before.size ≠ 0 → after.handed = before.handed
  deletes : ∀ g, g ≠ .idle → after.deletes g = before.deletes g

theorem Shape.restoreTop_accounts (h : Shape master) (selected : MovementGenerator)
    (reset : Bool) : RestoredAccounts selected master (master.restoreTop selected reset) := by
  have hshape := (h.restoreTop selected reset).shape
  have hcall : ∀ callback : Callback, (∀ g, callback ≠ .onDelete g) →
      ∀ g, (master.call callback).deletes g = master.deletes g := by
    intro callback hother g
    unfold deletes call
    rw [count_append, count_singleton]
    simp [hother g]
  unfold MotionMaster.restoreTop at hshape ⊢
  split at hshape
  · next hempty =>
    rw [if_pos hempty]
    have hnothing : popAbove false 0 master.size master = master := by
      rw [hempty]
      rfl
    unfold MotionMaster.initializeDefault at hshape ⊢
    rw [hnothing] at hshape ⊢
    have hfree : master.slot 0 = none := h.above 0 (by omega)
    refine ⟨⟨hshape, fun haccounted => haccounted.mutate selected (by decide),
      Or.inr handed_mutate⟩, fun hne => absurd hempty hne, fun g hg => ?_⟩
    rw [deletes_mutate hg, hfree, if_neg fun hand => nomatch hand.1]
    rfl
  · next hne =>
    rw [if_neg hne]
    split at hshape
    · next hinit =>
      rw [if_pos hinit]
      obtain ⟨movement, htop⟩ := h.top_eq_some hne
      unfold MotionMaster.initTop at hshape ⊢
      rw [htop] at hshape ⊢
      refine ⟨⟨hshape, fun haccounted => haccounted.of_conserves
        ((conserves_onInitialize movement).trans (conserves_of_eq rfl rfl rfl)) rfl,
        Or.inl rfl⟩, fun _ => rfl, fun g _ => hcall _ (fun _ => by simp) g⟩
    · next hinit =>
      rw [if_neg hinit]
      split at hshape
      · next hreset =>
        rw [if_pos hreset]
        obtain ⟨movement, htop⟩ := h.top_eq_some hne
        unfold MotionMaster.resetTop at hshape ⊢
        rw [htop] at hshape ⊢
        exact ⟨⟨hshape, fun haccounted => haccounted.of_conserves (conserves_onReset movement) rfl,
          Or.inl rfl⟩, fun _ => rfl, fun g _ => hcall _ (fun _ => by simp) g⟩
      · next hreset =>
        rw [if_neg hreset]
        exact ⟨⟨h, id, .inl rfl⟩, fun _ => rfl, fun _ _ => rfl⟩

/-! ### The operations of the master -/

section

variable (h : Shape master)
include h

theorem Shape.accounts_clear (reset : Bool) (selected : MovementGenerator) :
    Accounts selected master (master.clear reset) := by
  unfold clear
  split
  · have hset : Shape (master.setResetFlag reset) := h.congr rfl rfl
    have hflag : Conserves master (master.setResetFlag reset) := conserves_of_eq rfl rfl rfl
    have hpopped := @popAbove_spec _ true hset 1 _ (Nat.le_refl _)
    exact hpopped.shape.accounts_of_conserves
      (hflag.trans (hset.conserves_popAbove 1 _ true)) (handed_popAbove 1 _)
  · have hpopped := @popAbove_spec _ false h 1 _ (Nat.le_refl _)
    have hconserves := h.conserves_popAbove 1 master.size false
    have hrestored := hpopped.shape.restoreTop_accounts selected reset
    unfold MotionMaster.directClean
    unfold MotionMaster.restoreTop at hrestored
    dsimp only
    split
    · exact hpopped.shape.accounts_of_conserves hconserves (handed_popAbove 1 _)
    · next hne =>
      rw [if_neg hne] at hrestored
      exact hrestored.accounts.after_conserves hconserves (handed_popAbove 1 _)

/-- `Clear` deletes a generator exactly when it is direct and the generator is above the idle
slot. -/
theorem Shape.deletes_clear (reset : Bool) (hg : g ≠ .idle) :
    (master.clear reset).deletes g = master.deletes g ↔
      (master.cleanFlag.update = false → ∀ i, 1 ≤ i → i < master.size → master.slot i ≠ some g) := by
  unfold clear
  split
  · next hflag =>
    rw [hflag]
    exact iff_of_true (@deletes_popAbove_delayed (master.setResetFlag reset) g 1 _) nofun
  · next hflag =>
    rw [Bool.eq_false_iff.mpr hflag, ← h.deletes_popAbove_direct hg 1]
    have hpopped := @popAbove_spec _ false h 1 _ (Nat.le_refl _)
    have hrestored := (hpopped.shape.restoreTop_accounts .idle reset).deletes g hg
    have hclean : (master.directClean reset).deletes g =
        (popAbove false 1 master.size master).deletes g := by
      unfold MotionMaster.directClean
      unfold MotionMaster.restoreTop at hrestored
      dsimp only
      split
      · rfl
      · next hne =>
        rw [if_neg hne] at hrestored
        exact hrestored
    rw [hclean]
    simp

theorem Shape.accounts_clearSlot (slot : Nat) (selected : MovementGenerator) :
    Accounts selected master (master.clearSlot slot selected) := by
  unfold clearSlot
  split
  · exact ⟨h, id, .inl rfl⟩
  · split
    · exact (h.cleanSlot slot).accounts_of_conserves (h.conserves_cleanSlot slot true)
        handed_cleanSlot
    · have hrestored := (@Shape.cleanSlot _ false h slot).restoreTop_accounts selected false
      exact hrestored.accounts.after_conserves (h.conserves_cleanSlot slot false)
        handed_cleanSlot

theorem Shape.deletes_clearSlot (slot : Nat) (selected : MovementGenerator)
    (hg : g ≠ .idle) :
    (master.clearSlot slot selected).deletes g = master.deletes g ↔
      (master.cleanFlag.update = false → master.slot slot ≠ some g) := by
  unfold clearSlot
  split
  · next hinvalid =>
    have hnone : master.slot slot = none := by
      have hbound := h.bound
      apply h.above slot
      omega
    rw [hnone]
    simp
  · split
    · next hflag =>
      rw [hflag]
      exact iff_of_true deletes_cleanSlot_delayed nofun
    · next hflag =>
      have hrestored := (@Shape.cleanSlot _ false h slot).restoreTop_accounts selected false
      rw [Bool.eq_false_iff.mpr hflag]
      unfold directCleanSlot
      rw [hrestored.deletes g hg, deletes_cleanSlot_direct hg]
      simp

theorem Shape.accounts_movementExpired (reset : Bool)
    (selected : MovementGenerator) :
    Accounts selected master (master.movementExpired reset selected) := by
  unfold movementExpired
  split
  · have hset : Shape (master.setResetFlag reset) := h.congr rfl rfl
    have hflag : Conserves master (master.setResetFlag reset) := conserves_of_eq rfl rfl rfl
    exact hset.expire.accounts_of_conserves (hflag.trans (hset.conserves_expire true))
      handed_expire
  · have hrestored := (@Shape.expire _ false h).restoreTop_accounts selected reset
    exact hrestored.accounts.after_conserves (h.conserves_expire false) handed_expire

theorem Shape.deletes_movementExpired (reset : Bool)
    (selected : MovementGenerator) (hg : g ≠ .idle) :
    (master.movementExpired reset selected).deletes g = master.deletes g ↔
      (master.cleanFlag.update = false → 1 < master.size → master.top ≠ some g) := by
  unfold movementExpired
  split
  · next hflag =>
    rw [hflag]
    exact iff_of_true (@deletes_expire_delayed (master.setResetFlag reset) g) nofun
  · next hflag =>
    have hrestored := (@Shape.expire _ false h).restoreTop_accounts selected reset
    rw [Bool.eq_false_iff.mpr hflag]
    unfold directExpire
    rw [hrestored.deletes g hg, deletes_expire_direct hg]
    simp

end

/-! ### The end of an update -/

/-- The master of an update that returned, before the listed generators are deleted. -/
def returned (master : MotionMaster) (result : Bool) (selected : MovementGenerator) :
    MotionMaster :=
  if result then master.setUpdateFlag false
  else (master.setUpdateFlag false).directExpire true selected

theorem endUpdate_eq (result : Bool) (selected : MovementGenerator) :
    master.endUpdate result selected =
      if (master.returned result selected).expireList.isEmpty then master.returned result selected
      else (master.returned result selected).clearExpireList selected := by
  unfold endUpdate returned
  cases result <;> rfl

theorem Shape.returned_accounts (h : Shape master) (result : Bool)
    (selected : MovementGenerator) :
    Accounts selected master (master.returned result selected) ∧
      ((master.returned result selected).size = 0 →
        (master.returned result selected).handed = master.handed) := by
  have hset : Shape (master.setUpdateFlag false) := h.congr rfl rfl
  have hflag : Conserves master (master.setUpdateFlag false) := conserves_of_eq rfl rfl rfl
  unfold returned
  split
  · exact ⟨hset.accounts_of_conserves hflag rfl, fun _ => rfl⟩
  · have haccounts : Accounts selected (master.setUpdateFlag false) _ :=
      hset.accounts_movementExpired true selected
    have hready := ((@Shape.expire _ false hset).restoreTop selected true).ready
    exact ⟨haccounts.after_conserves hflag rfl, fun hempty => absurd hempty hready.1⟩

theorem expireList_expire_direct : (master.expire false).expireList = master.expireList := by
  unfold expire
  split
  · rw [expireList_lowerTop]
    unfold popTop
    split
    · exact expireList_pop
    · rw [expireList_discard, if_neg (by simp), expireList_pop]
  · rfl

section

variable (h : Shape master)
include h

theorem expireList_restoreTop (reset : Bool) :
    (master.restoreTop selected reset).expireList = master.expireList := by
  unfold restoreTop
  split
  · next hempty =>
    have hfree : master.slot 0 = none := h.above 0 (by omega)
    unfold initializeDefault
    rw [hempty]
    show (master.mutate selected 0).expireList = _
    unfold mutate
    rw [expireList_install]
    unfold makeRoom
    dsimp only
    rw [hfree]
    dsimp only
    split <;> rfl
  · split
    · unfold initTop
      split <;> rfl
    · split
      · unfold resetTop
        split <;> rfl
      · rfl

theorem Shape.expireList_returned (result : Bool)
    (selected : MovementGenerator) :
    (master.returned result selected).expireList = master.expireList := by
  have hset : Shape (master.setUpdateFlag false) := h.congr rfl rfl
  unfold returned
  split
  · rfl
  · unfold directExpire
    rw [expireList_restoreTop hset.expire, expireList_expire_direct]
    rfl

theorem Shape.deletes_returned (result : Bool) (selected : MovementGenerator)
    (hg : g ≠ .idle) : (master.returned result selected).deletes g = master.deletes g +
      if result = false ∧ 1 < master.size ∧ master.top = some g then 1 else 0 := by
  have hset : Shape (master.setUpdateFlag false) := h.congr rfl rfl
  unfold returned
  cases result with
  | true => simp [setUpdateFlag, deletes]
  | false =>
    rw [if_neg Bool.false_ne_true]
    unfold directExpire
    rw [((@Shape.expire _ false hset).restoreTop_accounts selected true).deletes g hg,
      deletes_expire_direct hg]
    simp only [true_and]
    rfl

/-- `ClearExpireList`, apart from its flags. -/
theorem Shape.clearExpireList_accounts (selected : MovementGenerator) :
    RestoredAccounts selected master.deleteListed (master.clearExpireList selected) := by
  obtain ⟨hslot, hsize, -⟩ := foldl_directDelete master.expireList master
  have hdeleted : Shape master.deleteListed := h.congr hslot hsize
  have hrestored := hdeleted.restoreTop_accounts selected master.deleteListed.cleanFlag.reset
  refine ⟨⟨hrestored.accounts.shape.congr rfl rfl, fun haccounted => ?_,
    hrestored.accounts.handed⟩, hrestored.handed, hrestored.deletes⟩
  exact (hrestored.accounts.accounted haccounted).of_conserves (conserves_of_eq rfl rfl rfl) rfl

theorem Shape.accounts_endUpdate (result : Bool)
    (selected : MovementGenerator) :
    Accounts selected master (master.endUpdate result selected) := by
  obtain ⟨hreturned, hempty⟩ := h.returned_accounts result selected
  rw [endUpdate_eq]
  split
  · exact hreturned
  · have hcleared := hreturned.shape.clearExpireList_accounts selected
    have hconserves := conserves_deleteListed (master.returned result selected)
    have hkept := handed_deleteListed (master.returned result selected)
    refine ⟨hcleared.accounts.shape, fun haccounted => ?_, ?_⟩
    · exact hcleared.accounts.accounted
        ((hreturned.accounted haccounted).of_conserves hconserves hkept)
    · -- A generator is selected once: when the stack is empty after the list.
      by_cases hzero : (master.returned result selected).size = 0
      · rw [← hempty hzero, ← hkept]
        exact hcleared.accounts.handed
      · have hsize : (master.returned result selected).deleteListed.size =
            (master.returned result selected).size := (foldl_directDelete _ _).2.1
        rw [hcleared.handed (by rw [hsize]; exact hzero), hkept]
        exact hreturned.handed

/-- The end of an update deletes what was listed, and the top when the update returned
`false`. -/
theorem Shape.deletes_endUpdate (result : Bool) (selected : MovementGenerator)
    (hg : g ≠ .idle) : (master.endUpdate result selected).deletes g = master.deletes g +
      (if result = false ∧ 1 < master.size ∧ master.top = some g then 1 else 0) +
        master.expireList.count g := by
  obtain ⟨hreturned, -⟩ := h.returned_accounts result selected
  rw [endUpdate_eq, ← h.deletes_returned result selected hg,
    ← h.expireList_returned result selected]
  split
  · next hnil => rw [isEmpty_iff.mp hnil, count_nil, Nat.add_zero]
  · rw [(hreturned.shape.clearExpireList_accounts selected).deletes g hg]
    exact foldl_directDelete_counts _ _ hg

end

end MotionMaster

namespace MotionRun

open MotionMaster

variable {run : MotionRun} {selected g : MovementGenerator}

/-- The generator is in one slot, or is listed, or was finalized and deleted once. -/
def InOnePlace (master : MotionMaster) (g : MovementGenerator) : Prop :=
  master.holdings g = 1 ∧ master.finalizes g = master.deletes g

/-- Every generator handed in is in one place, none whose `Update` is executing was finalized or
deleted, and an update that returned `false` expired no other generator. -/
structure Sound (run : MotionRun) : Prop where
  onePlace : ∀ g ∈ run.master.handed, g ≠ .idle → InOnePlace run.master g
  executing : ∀ g ∈ run.updating, g ≠ .idle → run.master.finalizes g = 0 ∧ run.master.deletes g = 0
  expired : ∀ pair ∈ run.expired, pair.1 = pair.2

/-- Generators are handed in once: every call of `Mutate` gets a new one, or the static one. -/
def Fresh (run : MotionRun) : MotionEvent → Prop
  | .mutate m _ => m = .idle ∨ m ∉ run.master.handed
  | .clear _ => True
  | .clearSlot _ selected => selected = .idle ∨ selected ∉ run.master.handed
  | .movementExpired _ selected => selected = .idle ∨ selected ∉ run.master.handed
  | .beginUpdate => True
  | .endUpdate _ selected => selected = .idle ∨ selected ∉ run.master.handed

/-- The events that leave executing generators alone. -/
def LeavesExecuting (run : MotionRun) : MotionEvent → Prop
  | .mutate _ slot => ∀ g ∈ run.updating, g ≠ .idle → run.master.slot slot = some g →
    run.master.size = slot + 1 ∧ run.master.cleanFlag.update = true
  | .clear _ => ∀ g ∈ run.updating, g ≠ .idle → run.master.cleanFlag.update = false →
    ∀ i, 1 ≤ i → i < run.master.size → run.master.slot i ≠ some g
  | .clearSlot slot _ => ∀ g ∈ run.updating, g ≠ .idle → run.master.cleanFlag.update = false →
    run.master.slot slot ≠ some g
  | .movementExpired _ _ => ∀ g ∈ run.updating, g ≠ .idle →
    run.master.cleanFlag.update = false → 1 < run.master.size → run.master.top ≠ some g
  | .beginUpdate => True
  | .endUpdate result _ =>
    match run.updating with
    | [] => True
    | movement :: outer =>
      (∀ g ∈ outer, g ≠ .idle → g ∉ run.master.expireList ∧
        ¬(result = false ∧ 1 < run.master.size ∧ run.master.top = some g)) ∧
      (result = false → 1 < run.master.size → run.master.top = some movement)

/-- The same, of a run that goes on. -/
def Safe (run : MotionRun) (event : MotionEvent) : Prop :=
  run.aborted = false → LeavesExecuting run event

/-- What makes a run sound. -/
structure LifeInv (run : MotionRun) : Prop where
  shape : Shape run.master
  accounted : Accounted run.master
  once : ∀ g, g ≠ .idle → run.master.handed.count g ≤ 1
  executing : ∀ g ∈ run.updating, g ≠ .idle → run.master.deletes g = 0
  expired : ∀ pair ∈ run.expired, pair.1 = pair.2

theorem LifeInv.sound (h : LifeInv run) : Sound run := by
  refine ⟨fun g hmem hg => ?_, fun g hmem hg => ?_, h.expired⟩
  · have hpositive := count_pos_iff.mpr hmem
    have honce := h.once g hg
    refine ⟨?_, h.accounted.finalizes g⟩
    rw [h.accounted.holdings g hg]
    omega
  · rw [h.accounted.finalizes g]
    exact ⟨h.executing g hmem hg, h.executing g hmem hg⟩

/-- A generator that is handed in for the first time is handed in once. -/
theorem once_cons {handed : List MovementGenerator} (honce : ∀ g, g ≠ .idle → handed.count g ≤ 1)
    (hfresh : selected = .idle ∨ selected ∉ handed) :
    ∀ g, g ≠ .idle → (selected :: handed).count g ≤ 1 := by
  intro g hg
  by_cases heq : selected = g
  · subst heq
    have hzero : handed.count selected = 0 := count_eq_zero_of_not_mem (hfresh.resolve_left hg)
    rw [count_cons_self]
    omega
  · rw [count_cons_of_ne heq]
    exact honce g hg

section

variable (h : LifeInv run)
include h

/-- An operation that deletes no executing generator. -/
theorem LifeInv.operation (haccounts : Accounts selected run.master after)
    (hfresh : selected = .idle ∨ selected ∉ run.master.handed)
    (hdeletes : ∀ g ∈ run.updating, g ≠ .idle → after.deletes g = run.master.deletes g) :
    LifeInv { run with master := after } := by
  refine ⟨haccounts.shape, haccounts.accounted h.accounted, ?_, fun g hmem hg => ?_, h.expired⟩
  · dsimp only
    cases haccounts.handed with
    | inl hsame =>
      rw [hsame]
      exact h.once
    | inr hmore =>
      rw [hmore]
      exact once_cons h.once hfresh
  · exact (hdeletes g hmem hg).trans (h.executing g hmem hg)

/-- An operation that deletes an executing generator. -/
theorem LifeInv.not_sound {g : MovementGenerator} (hmem : g ∈ run.updating)
    (hg : g ≠ .idle) (hdeletes : after.deletes g ≠ run.master.deletes g) :
    ¬Sound { run with master := after } := by
  intro hsound
  apply hdeletes
  rw [h.executing g hmem hg]
  exact (hsound.executing g hmem hg).2

/-- The deletions of an operation decide. -/
theorem LifeInv.operation_iff {event : MotionEvent}
    (haccounts : Accounts selected run.master after)
    (hfresh : selected = .idle ∨ selected ∉ run.master.handed)
    (hleaves : LeavesExecuting run event ↔ ∀ g ∈ run.updating, g ≠ .idle →
      after.deletes g = run.master.deletes g) :
    (LeavesExecuting run event → LifeInv { run with master := after }) ∧
      (¬LeavesExecuting run event → ¬Sound { run with master := after }) := by
  constructor
  · intro hok
    exact h.operation haccounts hfresh (hleaves.mp hok)
  · intro hnot
    rw [hleaves] at hnot
    simp only [not_forall] at hnot
    obtain ⟨g, hmem, hg, hdeletes⟩ := hnot
    exact h.not_sound hmem hg hdeletes

theorem LifeInv.beginUpdate : LifeInv run.beginUpdate := by
  unfold MotionRun.beginUpdate
  split
  · exact ⟨h.shape, h.accounted, h.once, h.executing, h.expired⟩
  · next hne =>
    obtain ⟨movement, htop⟩ := h.shape.top_eq_some hne
    rw [htop]
    dsimp only
    have hflag : Conserves run.master (run.master.setUpdateFlag true) := conserves_of_eq rfl rfl rfl
    refine ⟨h.shape.congr rfl rfl, h.accounted.of_conserves hflag rfl, h.once, ?_, h.expired⟩
    intro g hmem hg
    cases mem_cons.mp hmem with
    | inr houter => exact h.executing g houter hg
    | inl heq =>
      -- The top is in a slot, so it was not deleted.
      subst heq
      have hbound := h.shape.bound
      have hheld := h.accounted.holdings g hg
      have honce := h.once g hg
      have hslot : 1 ≤ run.master.slotCount g := by
        unfold slotCount
        have hmem : run.master.size - 1 ∈ Finset.range maxMotionSlot :=
          Finset.mem_range.mpr (by omega)
        rw [← Finset.add_sum_erase _ _ hmem, show run.master.slot (run.master.size - 1) =
          some g from htop, if_pos rfl]
        omega
      show run.master.deletes g = 0
      unfold holdings at hheld
      omega

theorem LifeInv.endUpdate_iff (result : Bool)
    (hfresh : selected = .idle ∨ selected ∉ run.master.handed) :
    (LeavesExecuting run (.endUpdate result selected) → LifeInv (run.endUpdate result selected)) ∧
      (¬LeavesExecuting run (.endUpdate result selected) →
        ¬Sound (run.endUpdate result selected)) := by
  have haccounts := h.shape.accounts_endUpdate result selected
  have hdeletes := fun g (hg : g ≠ MovementGenerator.idle) =>
    h.shape.deletes_endUpdate result selected hg
  unfold LeavesExecuting MotionRun.endUpdate
  cases hupdating : run.updating with
  | nil => exact ⟨fun _ => h, fun hnot => absurd trivial hnot⟩
  | cons movement outer =>
    dsimp only
    have hzero : ∀ g ∈ outer, g ≠ .idle → run.master.deletes g = 0 := fun g hmem hg =>
      h.executing g (hupdating ▸ mem_cons_of_mem movement hmem) hg
    constructor
    · rintro ⟨houter, hself⟩
      refine ⟨haccounts.shape, haccounts.accounted h.accounted, ?_, fun g hmem hg => ?_, ?_⟩
      · dsimp only
        cases haccounts.handed with
        | inl hsame =>
          rw [hsame]
          exact h.once
        | inr hmore =>
          rw [hmore]
          exact once_cons h.once hfresh
      · obtain ⟨hunlisted, hunexpired⟩ := houter g hmem hg
        dsimp only
        rw [hdeletes g hg, if_neg hunexpired, count_eq_zero_of_not_mem hunlisted, hzero g hmem hg]
      · dsimp only
        split
        · next hexpires =>
          rw [hself hexpires.1 hexpires.2]
          intro pair hpair
          cases mem_cons.mp hpair with
          | inl heq => rw [heq]
          | inr hmem => exact h.expired pair hmem
        · exact h.expired
    · intro hnot hsound
      apply hnot
      constructor
      · intro g hmem hg
        have hafter := (hsound.executing g hmem hg).2
        dsimp only at hafter
        rw [hdeletes g hg] at hafter
        constructor
        · intro hlisted
          have hpositive := count_pos_iff.mpr hlisted
          omega
        · intro hexpires
          rw [if_pos hexpires] at hafter
          omega
      · intro hresult hlt
        obtain ⟨curr, hcurr⟩ := h.shape.top_eq_some (by omega)
        have hpair := hsound.expired (movement, curr) (by
          dsimp only
          rw [if_pos ⟨hresult, hlt⟩, hcurr]
          exact mem_cons_self)
        rw [hcurr]
        exact congrArg some hpair.symm

/-- A step keeps the invariant or breaks what it is for. -/
theorem LifeInv.step_iff (event : MotionEvent) (hfresh : Fresh run event) :
    (Safe run event → LifeInv (run.step event)) ∧
      (¬Safe run event → ¬Sound (run.step event)) := by
  unfold Safe MotionRun.step
  by_cases haborted : run.aborted = true
  · rw [if_pos haborted]
    have hsafe : run.aborted = false → LeavesExecuting run event := by
      rw [haborted]
      exact nofun
    exact ⟨fun _ => h, fun hnot => absurd hsafe hnot⟩
  rw [if_neg haborted]
  have hsafe : (run.aborted = false → LeavesExecuting run event) ↔ LeavesExecuting run event :=
    ⟨fun hok => hok (Bool.eq_false_iff.mpr haborted), fun hok _ => hok⟩
  rw [hsafe]
  cases event with
  | mutate m slot =>
    have haccounts : Accounts m run.master (run.master.mutate m slot) :=
      ⟨h.shape.mutate m slot.isLt, fun haccounted => haccounted.mutate m slot.isLt,
        Or.inr handed_mutate⟩
    apply h.operation_iff haccounts hfresh
    apply forall₃_congr
    intro g hmem hg
    rw [deletes_mutate hg, Nat.add_eq_left, ite_eq_right_iff]
    simp
  | clear reset =>
    apply h.operation_iff (h.shape.accounts_clear reset .idle) (.inl rfl)
    exact forall₃_congr fun g _ hg => (h.shape.deletes_clear reset hg).symm
  | clearSlot slot selected =>
    apply h.operation_iff (h.shape.accounts_clearSlot slot selected) hfresh
    exact forall₃_congr fun g _ hg => (h.shape.deletes_clearSlot slot selected hg).symm
  | movementExpired reset selected =>
    apply h.operation_iff (h.shape.accounts_movementExpired reset selected) hfresh
    exact forall₃_congr fun g _ hg => (h.shape.deletes_movementExpired reset selected hg).symm
  | beginUpdate => exact ⟨fun _ => h.beginUpdate, fun hnot => absurd trivial hnot⟩
  | endUpdate result selected => exact h.endUpdate_iff result hfresh

end

theorem lifeInv_start (selected : MovementGenerator) : LifeInv (start selected) := by
  have hempty : Shape ({} : MotionMaster) := ⟨fun _ _ => rfl, fun hne => absurd rfl hne, by decide⟩
  have haccounted : Accounted ({} : MotionMaster) := by
    refine ⟨fun g _ => ?_, fun g => rfl⟩
    simp [holdings, slotCount, deletes]
  have hstart : (start selected).master = ({} : MotionMaster).mutate selected 0 := rfl
  refine ⟨?_, ?_, ?_, nofun, nofun⟩
  · rw [hstart]
    exact hempty.mutate selected (by decide)
  · rw [hstart]
    exact haccounted.mutate selected (by decide)
  · rw [hstart, handed_mutate]
    exact once_cons (fun _ _ => Nat.zero_le 1) (.inr not_mem_nil)

/-- Where generators are handed in once, all states of a run are sound exactly when all its steps
leave executing generators alone. -/
theorem generators_sound_iff (selected : MovementGenerator) (events : List MotionEvent)
    (hfresh : StateMachine.Admits step Fresh (start selected) events) :
    (∀ before, before <+: events → Sound (StateMachine.run step (start selected) before)) ↔
      StateMachine.Admits step Safe (start selected) events :=
  StateMachine.run_prefixes_iff_of_invariant (lifeInv_start selected)
    (fun _ hinv => hinv.sound) (fun _ event hinv hcalled => (hinv.step_iff event hcalled).1)
    (fun _ event hinv hcalled => (hinv.step_iff event hcalled).2) hfresh

/-- A generator expires in its own update. -/
theorem generators_sound_iff_one :
    Sound (StateMachine.run step (start .idle) [.mutate (.allocated 1) 1, .beginUpdate,
      .movementExpired true .idle, .endUpdate true .idle]) := by
  have h := generators_sound_iff .idle [.mutate (.allocated 1) 1, .beginUpdate,
    .movementExpired true .idle, .endUpdate true .idle]
    ⟨Or.inr (by decide), trivial, Or.inl rfl, Or.inl rfl, trivial⟩
  apply h.mpr _ _ (prefix_refl _)
  refine ⟨?_, fun _ => trivial, ?_, ?_, trivial⟩
  · exact fun _ g hmem => nomatch hmem
  · exact fun _ g _ _ hflag => absurd hflag (by decide)
  · exact fun _ => ⟨nofun, nofun⟩

/-- The generator of the active slot updates. It puts a generator over itself and another one into
its own slot, and is deleted while it is executing; it then returns `false`, and another one than
it is expired. -/
theorem generators_not_sound_after_mutate :
    ¬∀ before, before <+: [.mutate (.allocated 1) 1, .beginUpdate, .mutate (.allocated 2) 2,
        .mutate (.allocated 3) 1, .endUpdate false .idle] →
      Sound (StateMachine.run step (start .idle) before) := by
  intro hall
  have hsound := hall [.mutate (.allocated 1) 1, .beginUpdate, .mutate (.allocated 2) 2,
    .mutate (.allocated 3) 1] (by decide)
  have hdeleted := (hsound.executing (.allocated 1) (by decide) (by decide)).2
  exact absurd hdeleted (by decide)

end MotionRun

end TrinityCore.Movement
