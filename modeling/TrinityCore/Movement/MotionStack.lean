import Mathlib.Data.List.Infix
import TrinityCore.Movement.MotionMaster

/-!
# The top of the motion master

Slots below the top may be empty, and an operation that takes generators off has to find the next
one and initialize it if that was put off. Direct operations do so at once, with one exception:
`Clear` leaves a stack empty when the idle slot was. During an update the work is left to the end
of the update, where it depends on the expire list not being empty, so the static generator, which
is never listed, must not uncover anything.
-/

namespace TrinityCore.Movement

open Function MotionMaster

variable {other after before : MotionMaster} {slots : Nat → Option MovementGenerator}
  {run : MotionRun}

namespace MotionMaster

variable {master : MotionMaster} {delayed : Bool} {curr m selected : MovementGenerator}
  {slot : Nat}

/-! ### What operations leave alone -/

@[simp] theorem slot_discard : (master.discard delayed curr).slot = master.slot := by
  unfold discard delayedDelete directDelete
  split <;> split <;> rfl

@[simp] theorem size_discard : (master.discard delayed curr).size = master.size := by
  unfold discard delayedDelete directDelete
  split <;> split <;> rfl

@[simp] theorem initializeSlot_discard :
    (master.discard delayed curr).initializeSlot = master.initializeSlot := by
  unfold discard delayedDelete directDelete
  split <;> split <;> rfl

@[simp] theorem cleanFlag_discard :
    (master.discard delayed curr).cleanFlag = master.cleanFlag := by
  unfold discard delayedDelete directDelete
  split <;> split <;> rfl

@[simp] theorem handed_discard : (master.discard delayed curr).handed = master.handed := by
  unfold discard delayedDelete directDelete
  split <;> split <;> rfl

/-- Only the delayed deletion of a generator that is not static is listed. -/
theorem expireList_discard : (master.discard delayed curr).expireList =
    if delayed = true ∧ curr ≠ .idle then master.expireList ++ [curr] else master.expireList := by
  unfold discard delayedDelete directDelete MovementGenerator.isStatic
  cases delayed <;> by_cases h : curr = .idle <;> simp [h, call]

/-! ### The shape of the stack -/

/-- Nothing is above the top, and something is at it. -/
structure Shape (master : MotionMaster) : Prop where
  above : ∀ i, master.size ≤ i → master.slot i = none
  top : master.size ≠ 0 → master.slot (master.size - 1) ≠ none
  bound : master.size ≤ maxMotionSlot

/-- The top has been initialized. -/
def Ready (master : MotionMaster) : Prop :=
  master.size ≠ 0 ∧ master.initializeSlot (master.size - 1) = false

theorem Shape.congr (h : Shape master) (hslot : other.slot = master.slot)
    (hsize : other.size = master.size) : Shape other := by
  refine ⟨?_, ?_, ?_⟩
  · rw [hslot, hsize]
    exact h.above
  · rw [hslot, hsize]
    exact h.top
  · rw [hsize]
    exact h.bound

theorem Ready.congr (h : Ready master) (hsize : other.size = master.size)
    (hinit : other.initializeSlot = master.initializeSlot) : Ready other := by
  unfold Ready
  rw [hsize, hinit]
  exact h

theorem skipEmpty_le (slots : Nat → Option MovementGenerator) (n : Nat) :
    skipEmpty slots n ≤ n := by
  induction n with
  | zero => exact Nat.le_refl 0
  | succ n ih =>
    unfold skipEmpty
    split
    · exact Nat.le_succ_of_le ih
    · exact Nat.le_refl _

theorem skipEmpty_skipped {n i : Nat} (hle : skipEmpty slots n ≤ i) (hlt : i < n) :
    slots i = none := by
  induction n with
  | zero => exact absurd hlt (Nat.not_lt_zero i)
  | succ n ih =>
    unfold skipEmpty at hle
    split at hle
    · next hnone =>
      cases Nat.lt_succ_iff_lt_or_eq.mp hlt with
      | inl hbelow => exact ih hle hbelow
      | inr heq => exact heq ▸ hnone
    · omega

theorem skipEmpty_top {n : Nat} (h : skipEmpty slots n ≠ 0) :
    slots (skipEmpty slots n - 1) ≠ none := by
  induction n with
  | zero => exact absurd rfl h
  | succ n ih =>
    unfold skipEmpty at h ⊢
    split
    · next hnone =>
      rw [if_pos hnone] at h
      exact ih h
    · next hsome => exact hsome

/-- The loop stops at the first generator below. -/
theorem skipEmpty_eq {n i : Nat} (hlt : i < n) (hsome : slots i ≠ none)
    (hnone : ∀ j, i < j → j < n → slots j = none) : skipEmpty slots n = i + 1 := by
  have hle : ¬skipEmpty slots n ≤ i := fun hle => hsome (skipEmpty_skipped hle hlt)
  by_contra hne
  have htop := @skipEmpty_top slots n (by omega)
  have hbound := skipEmpty_le slots n
  exact htop (hnone _ (by omega) (by omega))

@[simp] theorem slot_lowerTop : master.lowerTop.slot = master.slot := rfl

@[simp] theorem initializeSlot_lowerTop :
    master.lowerTop.initializeSlot = master.initializeSlot := rfl

@[simp] theorem expireList_lowerTop : master.lowerTop.expireList = master.expireList := rfl

@[simp] theorem cleanFlag_lowerTop : master.lowerTop.cleanFlag = master.cleanFlag := rfl

theorem shape_lowerTop (habove : ∀ i, master.size ≤ i → master.slot i = none)
    (hbound : master.size ≤ maxMotionSlot) : Shape master.lowerTop := by
  refine ⟨?_, ?_, ?_⟩
  · intro i hi
    by_cases hlt : i < master.size
    · exact skipEmpty_skipped hi hlt
    · exact habove i (Nat.le_of_not_lt hlt)
  · intro hne
    exact skipEmpty_top hne
  · exact Nat.le_trans (skipEmpty_le master.slot master.size) hbound

theorem Shape.lowerTop_eq (h : Shape master) : master.lowerTop = master := by
  have hsize : skipEmpty master.slot master.size = master.size := by
    cases hn : master.size with
    | zero => rfl
    | succ n =>
      have htop := h.top (by omega)
      rw [hn, Nat.add_sub_cancel] at htop
      unfold skipEmpty
      rw [if_neg htop]
  unfold lowerTop
  rw [hsize]

/-- A slot that is emptied. -/
theorem Shape.above_setSlot (h : Shape master) (slot : Nat) :
    ∀ i, master.size ≤ i → (master.setSlot slot none).slot i = none := by
  intro i hi
  unfold setSlot
  dsimp only
  by_cases heq : i = slot
  · rw [heq, update_self]
  · rw [update_of_ne heq]
    exact h.above i hi

theorem Shape.pop (h : Shape master) : Shape master.pop := by
  unfold MotionMaster.pop
  split
  · exact h
  · exact shape_lowerTop (h.above_setSlot _) h.bound

theorem size_pop_lt (hne : master.size ≠ 0) : master.pop.size < master.size := by
  unfold pop
  rw [if_neg hne]
  have hle := skipEmpty_le (master.setSlot (master.size - 1) none).slot (master.size - 1)
  have hsize : (master.setSlot (master.size - 1) none).lowerTop.size =
      skipEmpty (master.setSlot (master.size - 1) none).slot (master.size - 1) := by
    unfold lowerTop
    dsimp only
    have hsucc : (master.setSlot (master.size - 1) none).size = (master.size - 1) + 1 := by
      show master.size = master.size - 1 + 1
      omega
    rw [hsucc, skipEmpty, if_pos]
    exact update_self ..
  omega

theorem slot_pop (hne : master.size ≠ 0) :
    master.pop.slot = update master.slot (master.size - 1) none := by
  unfold pop
  rw [if_neg hne]
  rfl

@[simp] theorem initializeSlot_pop : master.pop.initializeSlot = master.initializeSlot := by
  unfold pop
  split <;> rfl

@[simp] theorem expireList_pop : master.pop.expireList = master.expireList := by
  unfold pop
  split <;> rfl

@[simp] theorem cleanFlag_pop : master.pop.cleanFlag = master.cleanFlag := by
  unfold pop
  split <;> rfl

/-! ### Taking generators off -/

theorem Shape.top_eq_some (h : Shape master) (hne : master.size ≠ 0) :
    ∃ curr, master.top = some curr := Option.ne_none_iff_exists'.mp (h.top hne)

theorem Shape.popTop (h : Shape master) : Shape (master.popTop delayed) := by
  unfold MotionMaster.popTop
  split
  · exact h.pop
  · exact h.pop.congr slot_discard size_discard

theorem size_popTop : (master.popTop delayed).size = master.pop.size := by
  unfold popTop
  split
  · rfl
  · exact size_discard

theorem slot_popTop (hne : master.size ≠ 0) :
    (master.popTop delayed).slot = update master.slot (master.size - 1) none := by
  unfold popTop
  split
  · exact slot_pop hne
  · rw [slot_discard]
    exact slot_pop hne

@[simp] theorem initializeSlot_popTop :
    (master.popTop delayed).initializeSlot = master.initializeSlot := by
  unfold popTop
  split <;> simp

@[simp] theorem cleanFlag_popTop : (master.popTop delayed).cleanFlag = master.cleanFlag := by
  unfold popTop
  split <;> simp

/-- The expire list is empty after a delayed deletion only of the static generator. -/
theorem expireList_popTop_eq_nil (h : (master.popTop true).expireList = []) :
    master.expireList = [] ∧ ∀ curr, master.top = some curr → curr = .idle := by
  unfold popTop at h
  split at h
  · next hnone =>
    rw [expireList_pop] at h
    exact ⟨h, fun curr hcurr => nomatch hnone.symm.trans hcurr⟩
  · next curr hcurr =>
    rw [expireList_discard, expireList_pop] at h
    split at h
    · exact absurd h (by simp)
    · next hidle =>
      refine ⟨h, fun other hother => ?_⟩
      cases hcurr.symm.trans hother
      simpa using hidle

/-- The loop takes off everything from a slot on, and nothing below. -/
structure PoppedAbove (bound : Nat) (before after : MotionMaster) : Prop where
  shape : Shape after
  size_le : after.size ≤ bound
  slot : ∀ i, i < bound → after.slot i = before.slot i
  initializeSlot : after.initializeSlot = before.initializeSlot
  cleanFlag : after.cleanFlag = before.cleanFlag

theorem popAbove_spec (h : Shape master) (bound : Nat) {fuel : Nat} (hfuel : master.size ≤ fuel) :
    PoppedAbove bound master (popAbove delayed bound fuel master) := by
  induction fuel generalizing master with
  | zero => exact ⟨h, by rw [popAbove]; omega, fun _ _ => rfl, rfl, rfl⟩
  | succ fuel ih =>
    unfold popAbove
    split
    · next hlt =>
      have hne : master.size ≠ 0 := by omega
      have hsize := size_pop_lt hne
      have hrest := @ih (master.popTop delayed) h.popTop (by rw [size_popTop]; omega)
      refine ⟨hrest.shape, hrest.size_le, ?_, ?_, ?_⟩
      · intro i hi
        rw [hrest.slot i hi, slot_popTop hne, update_of_ne (by omega)]
      · rw [hrest.initializeSlot, initializeSlot_popTop]
      · rw [hrest.cleanFlag, cleanFlag_popTop]
    · next hge => exact ⟨h, by omega, fun _ _ => rfl, rfl, rfl⟩

/-- The expire list is empty after the loop only when it took off nothing but the static
generator. -/
theorem expireList_popAbove_eq_nil {bound fuel : Nat} (hfuel : master.size ≤ fuel)
    (h : (popAbove true bound fuel master).expireList = []) :
    master.expireList = [] ∧
      ∀ i curr, bound ≤ i → i < master.size → master.slot i = some curr → curr = .idle := by
  induction fuel generalizing master with
  | zero => exact ⟨h, fun i _ _ hi => absurd hi (by omega)⟩
  | succ fuel ih =>
    unfold popAbove at h
    split at h
    · next hlt =>
      have hne : master.size ≠ 0 := by omega
      have hsize := size_pop_lt hne
      obtain ⟨hnil, hbelow⟩ := ih (by rw [size_popTop]; omega) h
      obtain ⟨hnil, htop⟩ := expireList_popTop_eq_nil hnil
      refine ⟨hnil, fun i curr hge hi hcurr => ?_⟩
      by_cases heq : i = master.size - 1
      · rw [heq] at hcurr
        exact htop curr hcurr
      · by_cases hpopped : i < (master.popTop true).size
        · apply hbelow i curr hge hpopped
          rw [slot_popTop hne, update_of_ne heq]
          exact hcurr
        · -- The slot is between the old top and the new one, where nothing is.
          rw [size_popTop, pop, if_neg hne] at hpopped
          have hskipped := @skipEmpty_skipped (update master.slot (master.size - 1) none)
            master.size i (Nat.le_of_not_lt hpopped) hi
          rw [update_of_ne heq, hcurr] at hskipped
          cases hskipped
    · next hge => exact ⟨h, fun i _ hbound hi => absurd hi (by omega)⟩

/-! ### Putting a generator in -/

theorem slot_makeRoom : (master.makeRoom slot).slot = update master.slot slot none := by
  unfold makeRoom
  split
  · exact slot_discard
  · next hnone =>
    have hsame : update master.slot slot none = master.slot := by
      rw [← hnone, update_eq_self]
    split <;> exact hsame.symm

theorem Shape.size_makeRoom (h : Shape master) (slot : Nat) :
    (master.makeRoom slot).size = max master.size (slot + 1) := by
  unfold makeRoom
  split
  · next curr hcurr =>
    have hlt : slot < master.size := by
      by_contra hge
      exact nomatch (h.above slot (Nat.le_of_not_lt hge)).symm.trans hcurr
    rw [size_discard]
    show master.size = _
    omega
  · split
    · show slot + 1 = _
      omega
    · omega

@[simp] theorem initializeSlot_makeRoom :
    (master.makeRoom slot).initializeSlot = master.initializeSlot := by
  unfold makeRoom
  split
  · exact initializeSlot_discard
  · split <;> rfl

@[simp] theorem cleanFlag_makeRoom : (master.makeRoom slot).cleanFlag = master.cleanFlag := by
  unfold makeRoom
  split
  · exact cleanFlag_discard
  · split <;> rfl

theorem expireList_makeRoom_eq_nil (h : (master.makeRoom slot).expireList = []) :
    master.expireList = [] := by
  unfold makeRoom at h
  split at h
  · rw [expireList_discard] at h
    split at h
    · exact absurd h (by simp)
    · exact h
  · split at h <;> exact h

@[simp] theorem slot_install :
    (master.install m slot).slot = update master.slot slot (some m) := by
  unfold install
  dsimp only
  split <;> rfl

@[simp] theorem size_install : (master.install m slot).size = master.size := by
  unfold install
  dsimp only
  split <;> rfl

@[simp] theorem cleanFlag_install : (master.install m slot).cleanFlag = master.cleanFlag := by
  unfold install
  dsimp only
  split <;> rfl

@[simp] theorem expireList_install : (master.install m slot).expireList = master.expireList := by
  unfold install
  dsimp only
  split <;> rfl

/-- A generator that is put in under the top is initialized later, any other now. -/
theorem initializeSlot_install : (master.install m slot).initializeSlot =
    update master.initializeSlot slot (decide (slot + 1 < master.size)) := by
  have hsize : (master.setSlot slot (some m)).size = master.size := rfl
  unfold install
  dsimp only
  rw [hsize]
  split
  · next h => rw [decide_eq_true h]; rfl
  · next h => rw [decide_eq_false h]; rfl

theorem Shape.mutate (h : Shape master) (m : MovementGenerator) (hslot : slot < maxMotionSlot) :
    Shape (master.mutate m slot) := by
  have hsize := (@Shape.size_makeRoom { master with handed := m :: master.handed }
    ⟨h.above, h.top, h.bound⟩ slot)
  have hbound := h.bound
  unfold MotionMaster.mutate
  refine ⟨?_, ?_, ?_⟩
  · intro i hi
    rw [size_install, hsize] at hi
    dsimp only at hi
    rw [slot_install, slot_makeRoom, update_of_ne (by omega), update_of_ne (by omega)]
    exact h.above i (by omega)
  · intro _
    rw [size_install, slot_install, slot_makeRoom, hsize]
    dsimp only
    by_cases heq : max master.size (slot + 1) - 1 = slot
    · rw [heq, update_self]
      exact Option.some_ne_none m
    · rw [update_of_ne heq, update_of_ne heq]
      have hmax : max master.size (slot + 1) = master.size := by omega
      rw [hmax]
      exact h.top (by omega)
  · rw [size_install, hsize]
    dsimp only
    omega

/-- A generator at the top is initialized when it is put in. -/
theorem Shape.ready_mutate (h : Shape master) (m : MovementGenerator) (slot : Nat)
    (hready : Ready master ∨ master.size ≤ slot + 1) : Ready (master.mutate m slot) := by
  have hsize := (@Shape.size_makeRoom { master with handed := m :: master.handed }
    ⟨h.above, h.top, h.bound⟩ slot)
  unfold MotionMaster.mutate Ready
  rw [size_install, initializeSlot_install, initializeSlot_makeRoom, hsize]
  dsimp only
  refine ⟨by omega, ?_⟩
  by_cases heq : max master.size (slot + 1) - 1 = slot
  · rw [heq, update_self]
    exact decide_eq_false (by omega)
  · rw [update_of_ne heq]
    have hmax : max master.size (slot + 1) = master.size := by omega
    rw [hmax]
    cases hready with
    | inl hready => exact hready.2
    | inr hle => omega

@[simp] theorem cleanFlag_mutate : (master.mutate m slot).cleanFlag = master.cleanFlag := by
  unfold mutate
  simp

theorem expireList_mutate_eq_nil (h : (master.mutate m slot).expireList = []) :
    master.expireList = [] := by
  unfold mutate at h
  rw [expireList_install] at h
  exact @expireList_makeRoom_eq_nil { master with handed := m :: master.handed } slot h

/-! ### Restoring the top -/

/-- What the end of a direct operation leaves. -/
structure Restored (before after : MotionMaster) : Prop where
  shape : Shape after
  ready : Ready after
  cleanFlag : after.cleanFlag = before.cleanFlag

theorem Shape.initializeDefault (h : Shape master) (hempty : master.size = 0)
    (selected : MovementGenerator) : Restored master (master.initializeDefault selected) := by
  have hnothing : popAbove false 0 master.size master = master := by
    rw [hempty]
    rfl
  unfold MotionMaster.initializeDefault
  rw [hnothing]
  exact ⟨h.mutate selected (by decide), h.ready_mutate selected 0 (.inr (by omega)),
    cleanFlag_mutate⟩

theorem Shape.initTop (h : Shape master) (hne : master.size ≠ 0) :
    Restored master master.initTop := by
  obtain ⟨movement, htop⟩ := h.top_eq_some hne
  unfold MotionMaster.initTop
  rw [htop]
  dsimp only
  refine ⟨h.congr rfl rfl, ⟨hne, ?_⟩, rfl⟩
  exact update_self ..

theorem Shape.resetTop (h : Shape master) (hready : Ready master) :
    Restored master master.resetTop := by
  unfold MotionMaster.resetTop
  split
  · exact ⟨h, hready, rfl⟩
  · exact ⟨h.congr rfl rfl, hready.congr rfl rfl, rfl⟩

theorem ready_of_not_needInitTop (hne : master.size ≠ 0) (h : ¬master.needInitTop = true) :
    Ready master := by
  unfold needInitTop at h
  rw [decide_eq_true hne, Bool.true_and] at h
  exact ⟨hne, Bool.eq_false_iff.mpr h⟩

theorem Shape.restoreTop (h : Shape master) (selected : MovementGenerator) (reset : Bool) :
    Restored master (master.restoreTop selected reset) := by
  unfold MotionMaster.restoreTop
  split
  · next hempty => exact h.initializeDefault hempty selected
  · next hne =>
    split
    · exact h.initTop hne
    · next hinit =>
      have hready := ready_of_not_needInitTop hne hinit
      split
      · exact h.resetTop hready
      · exact ⟨h, hready, rfl⟩

/-- A direct `Clear` restores the top when something is in the idle slot. -/
theorem Shape.directClean (h : Shape master) (hready : Ready master)
    (hidle : 1 < master.size → master.slot 0 ≠ none) (reset : Bool) :
    Restored master (master.directClean reset) := by
  have hpopped := @popAbove_spec master false h 1 master.size (Nat.le_refl _)
  have hne : (popAbove false 1 master.size master).size ≠ 0 := by
    intro hzero
    by_cases hlt : 1 < master.size
    · apply hidle hlt
      rw [← hpopped.slot 0 Nat.one_pos]
      exact hpopped.shape.above 0 (by omega)
    · have hsame : popAbove false 1 master.size master = master := by
        have hone : master.size = 1 := by
          have := hready.1
          omega
        rw [hone, popAbove, if_neg (by omega)]
      rw [hsame] at hzero
      exact hready.1 hzero
  have hrestored := hpopped.shape.restoreTop .idle reset
  have hclean : master.directClean reset =
      (popAbove false 1 master.size master).restoreTop .idle reset := by
    unfold MotionMaster.directClean MotionMaster.restoreTop
    dsimp only
    rw [if_neg hne, if_neg hne]
  rw [hclean]
  exact ⟨hrestored.shape, hrestored.ready, hrestored.cleanFlag.trans hpopped.cleanFlag⟩

/-! ### Slots that are cleaned, generators that expire -/

theorem Shape.cleanSlot (h : Shape master) (slot : Nat) :
    Shape (master.cleanSlot delayed slot) := by
  unfold MotionMaster.cleanSlot
  split
  · exact shape_lowerTop h.above h.bound
  · apply shape_lowerTop
    · rw [slot_discard, size_discard]
      exact h.above_setSlot slot
    · rw [size_discard]
      exact h.bound

@[simp] theorem cleanFlag_cleanSlot :
    (master.cleanSlot delayed slot).cleanFlag = master.cleanFlag := by
  unfold cleanSlot
  split
  · rfl
  · rw [cleanFlag_lowerTop, cleanFlag_discard]
    rfl

@[simp] theorem initializeSlot_cleanSlot :
    (master.cleanSlot delayed slot).initializeSlot = master.initializeSlot := by
  unfold cleanSlot
  split
  · rfl
  · rw [initializeSlot_lowerTop, initializeSlot_discard]
    rfl

theorem Shape.expire (h : Shape master) : Shape (master.expire delayed) := by
  unfold MotionMaster.expire
  split
  · rw [h.popTop.lowerTop_eq]
    exact h.popTop
  · rw [h.lowerTop_eq]
    exact h

@[simp] theorem cleanFlag_expire : (master.expire delayed).cleanFlag = master.cleanFlag := by
  unfold expire
  split <;> simp

/-- The first generator below a slot is there and has been initialized. -/
def ReadyBelow (master : MotionMaster) (slot : Nat) : Prop :=
  ∃ i < slot, master.slot i ≠ none ∧ (∀ j, i < j → j < slot → master.slot j = none) ∧
    master.initializeSlot i = false

/-- Taking the top off uncovers the first generator below. -/
theorem ReadyBelow.skipEmpty_eq (h : ReadyBelow master (master.size - 1)) :
    ∃ i, master.initializeSlot i = false ∧
      skipEmpty (update master.slot (master.size - 1) none) master.size = i + 1 := by
  obtain ⟨i, hi, hsome, hnone, hinit⟩ := h
  refine ⟨i, hinit, MotionMaster.skipEmpty_eq (by omega) ?_ fun j hij hj => ?_⟩
  · rw [update_of_ne (by omega)]
    exact hsome
  · by_cases heq : j = master.size - 1
    · rw [heq, update_self]
    · rw [update_of_ne heq]
      exact hnone j hij (by omega)

/-- Without a listed generator an update has to find the top ready. -/
def ReadyIfIdle (master : MotionMaster) : Prop := master.expireList = [] → Ready master

theorem Shape.readyIfIdle_delayedExpire (h : Shape master) (hready : ReadyIfIdle master)
    (hidle : 1 < master.size → master.expireList = [] → master.top = some .idle →
      ReadyBelow master (master.size - 1)) : ReadyIfIdle (master.expire true) := by
  intro hnil
  unfold MotionMaster.expire at hnil ⊢
  by_cases hlt : 1 < master.size
  · rw [if_pos hlt] at hnil ⊢
    rw [h.popTop.lowerTop_eq] at hnil ⊢
    obtain ⟨hlist, htop⟩ := expireList_popTop_eq_nil hnil
    obtain ⟨curr, hcurr⟩ := h.top_eq_some (by omega)
    rw [htop curr hcurr] at hcurr
    obtain ⟨i, hinit, hsize⟩ := (hidle hlt hlist hcurr).skipEmpty_eq
    have hpop : (master.popTop true).size = i + 1 := by
      rw [size_popTop, MotionMaster.pop, if_neg (by omega)]
      exact hsize
    unfold Ready
    rw [hpop, initializeSlot_popTop]
    exact ⟨by omega, hinit⟩
  · rw [if_neg hlt, h.lowerTop_eq] at hnil ⊢
    exact hready hnil

theorem Shape.readyIfIdle_delayedCleanSlot (h : Shape master) (hready : ReadyIfIdle master)
    (hne : master.size ≠ 0)
    (hidle : slot = master.size - 1 → master.expireList = [] → master.slot slot = some .idle →
      ReadyBelow master (master.size - 1)) : ReadyIfIdle (master.cleanSlot true slot) := by
  intro hnil
  unfold MotionMaster.cleanSlot at hnil ⊢
  split at hnil
  · next hnone =>
    rw [h.lowerTop_eq] at hnil ⊢
    exact hready hnil
  · next motion hmotion =>
    rw [expireList_lowerTop, expireList_discard] at hnil
    split at hnil
    · exact absurd hnil (by simp)
    · next hstatic =>
      have hlist : master.expireList = [] := hnil
      have hmotion' : master.slot slot = some .idle := by
        rw [hmotion]
        simpa using hstatic
      have hslots : ((master.setSlot slot none).discard true motion).slot =
          update master.slot slot none := slot_discard
      have hsize' : ((master.setSlot slot none).discard true motion).lowerTop.size =
          skipEmpty (update master.slot slot none) master.size := by
        show skipEmpty _ _ = _
        rw [hslots, size_discard]
        rfl
      have hinit' : ((master.setSlot slot none).discard true motion).lowerTop.initializeSlot =
          master.initializeSlot := initializeSlot_discard
      unfold Ready
      rw [hsize', hinit']
      by_cases htop : slot = master.size - 1
      · obtain ⟨i, hinit, hsize⟩ := (hidle htop hlist hmotion').skipEmpty_eq
        rw [htop, hsize]
        exact ⟨by omega, hinit⟩
      · -- The top stays.
        have hsame : skipEmpty (update master.slot slot none) master.size =
            master.size - 1 + 1 := by
          apply skipEmpty_eq (by omega)
          · rw [update_of_ne (Ne.symm htop)]
            exact h.top hne
          · intro j hj hlt
            omega
        rw [hsame]
        exact ⟨by omega, (hready hlist).2⟩

theorem Shape.readyIfIdle_delayedClean (h : Shape master) (hready : ReadyIfIdle master)
    (hidle : 1 < master.size → master.expireList = [] →
      (∀ i curr, 1 ≤ i → i < master.size → master.slot i = some curr → curr = .idle) →
        master.slot 0 ≠ none ∧ master.initializeSlot 0 = false) :
    ReadyIfIdle master.delayedClean := by
  intro hnil
  unfold delayedClean at hnil ⊢
  obtain ⟨hlist, hstatic⟩ := expireList_popAbove_eq_nil (Nat.le_refl _) hnil
  have hpopped := @popAbove_spec master true h 1 master.size (Nat.le_refl _)
  by_cases hlt : 1 < master.size
  · obtain ⟨hsome, hinit⟩ := hidle hlt hlist hstatic
    have hle := hpopped.size_le
    have hne : (popAbove true 1 master.size master).size ≠ 0 := by
      intro hzero
      apply hsome
      rw [← hpopped.slot 0 Nat.one_pos]
      exact hpopped.shape.above 0 (by omega)
    have hone : (popAbove true 1 master.size master).size = 1 := by omega
    unfold Ready
    rw [hone, hpopped.initializeSlot]
    exact ⟨Nat.one_ne_zero, hinit⟩
  · have hsame : popAbove true 1 master.size master = master := by
      cases hn : master.size with
      | zero => rfl
      | succ n =>
        rw [popAbove, if_neg hlt]
    rw [hsame]
    exact hready hlist

/-! ### The end of an update -/

theorem foldl_directDelete (movements : List MovementGenerator) (master : MotionMaster) :
    (movements.foldl directDelete master).slot = master.slot ∧
      (movements.foldl directDelete master).size = master.size ∧
      (movements.foldl directDelete master).cleanFlag = master.cleanFlag := by
  induction movements generalizing master with
  | nil => exact ⟨rfl, rfl, rfl⟩
  | cons movement movements ih =>
    have hfirst : master.directDelete movement = master.discard false movement := rfl
    rw [List.foldl_cons, hfirst]
    obtain ⟨hslot, hsize, hflag⟩ := ih (master.discard false movement)
    exact ⟨hslot.trans slot_discard, hsize.trans size_discard, hflag.trans cleanFlag_discard⟩

theorem Shape.clearExpireList (h : Shape master) (selected : MovementGenerator) :
    Shape (master.clearExpireList selected) ∧ Ready (master.clearExpireList selected) ∧
      (master.clearExpireList selected).cleanFlag.update = master.cleanFlag.update := by
  obtain ⟨hslot, hsize, hflag⟩ := foldl_directDelete master.expireList master
  have hdeleted : Shape { master.expireList.foldl directDelete master with expireList := [] } :=
    h.congr hslot hsize
  unfold MotionMaster.clearExpireList
  dsimp only
  generalize hreset : (master.expireList.foldl directDelete master).cleanFlag.reset = reset
  have hrestored := hdeleted.restoreTop selected reset
  refine ⟨hrestored.shape.congr rfl rfl, hrestored.ready.congr rfl rfl, ?_⟩
  rw [hrestored.cleanFlag]
  exact congrArg CleanFlag.update hflag

theorem Shape.endUpdate (h : Shape master) (hready : ReadyIfIdle master) (result : Bool)
    (selected : MovementGenerator) :
    Shape (master.endUpdate result selected) ∧ Ready (master.endUpdate result selected) ∧
      (master.endUpdate result selected).cleanFlag.update = false := by
  have hflagged : Shape (master.setUpdateFlag false) := h.congr rfl rfl
  unfold MotionMaster.endUpdate
  dsimp only
  cases result with
  | true =>
    rw [if_pos rfl]
    split
    · next hempty =>
      exact ⟨hflagged, (hready (List.isEmpty_iff.mp hempty)).congr rfl rfl, rfl⟩
    · exact hflagged.clearExpireList selected
  | false =>
    have hexpire : (master.setUpdateFlag false).movementExpired true selected =
        ((master.setUpdateFlag false).expire false).restoreTop selected true := rfl
    rw [if_neg Bool.false_ne_true, hexpire]
    have hrestored := (@Shape.expire _ false hflagged).restoreTop selected true
    have hflag : (((master.setUpdateFlag false).expire false).restoreTop selected
        true).cleanFlag.update = false := by
      rw [hrestored.cleanFlag, cleanFlag_expire]
      rfl
    split
    · exact ⟨hrestored.shape, hrestored.ready, hflag⟩
    · obtain ⟨hshape, hready, hsame⟩ := hrestored.shape.clearExpireList selected
      exact ⟨hshape, hready, hsame.trans hflag⟩

/-! ### Operations -/

/-- The top is ready, or an update that has listed a generator will make it so. -/
structure TopOk (master : MotionMaster) : Prop where
  shape : Shape master
  ready : master.cleanFlag.update = false ∨ master.expireList = [] → Ready master

theorem TopOk.readyIfIdle (h : TopOk master) : ReadyIfIdle master :=
  fun hnil => h.ready (.inr hnil)

/-- An operation keeps the top ready, and keeps the flag. -/
structure KeepsTop (before after : MotionMaster) : Prop where
  topOk : TopOk after
  update : after.cleanFlag.update = before.cleanFlag.update

theorem Restored.keepsTop (h : Restored before after) : KeepsTop before after :=
  ⟨⟨h.shape, fun _ => h.ready⟩, congrArg CleanFlag.update h.cleanFlag⟩

theorem keepsTop_of_readyIfIdle (hflag : before.cleanFlag.update = true) (hshape : Shape after)
    (hready : ReadyIfIdle after) (hsame : after.cleanFlag.update = before.cleanFlag.update) :
    KeepsTop before after := by
  refine ⟨⟨hshape, ?_⟩, hsame⟩
  rintro (hoff | hnil)
  · rw [hsame, hflag] at hoff
    cases hoff
  · exact hready hnil

theorem TopOk.mutate (h : TopOk master) (m : MovementGenerator) (hslot : slot < maxMotionSlot) :
    KeepsTop master (master.mutate m slot) := by
  refine ⟨⟨h.shape.mutate m hslot, ?_⟩, congrArg CleanFlag.update cleanFlag_mutate⟩
  rw [cleanFlag_mutate]
  intro hidle
  exact h.shape.ready_mutate m slot (.inl (h.ready (hidle.imp_right expireList_mutate_eq_nil)))

theorem TopOk.clear (h : TopOk master) (reset : Bool)
    (hupdate : master.cleanFlag.update = true → 1 < master.size → master.expireList = [] →
      (∀ i curr, 1 ≤ i → i < master.size → master.slot i = some curr → curr = .idle) →
        master.slot 0 ≠ none ∧ master.initializeSlot 0 = false)
    (hdirect : master.cleanFlag.update = false → 1 < master.size → master.slot 0 ≠ none) :
    KeepsTop master (master.clear reset) := by
  unfold MotionMaster.clear
  split
  · next hflag =>
    have hset : Shape (master.setResetFlag reset) := h.shape.congr rfl rfl
    have hpopped := @popAbove_spec _ true hset 1 _ (Nat.le_refl _)
    apply keepsTop_of_readyIfIdle hflag hpopped.shape
      (hset.readyIfIdle_delayedClean h.readyIfIdle (hupdate hflag))
    rw [hpopped.cleanFlag]
    rfl
  · next hflag =>
    have hoff : master.cleanFlag.update = false := Bool.eq_false_iff.mpr hflag
    exact (h.shape.directClean (h.ready (.inl hoff)) (hdirect hoff) reset).keepsTop

theorem TopOk.clearSlot (h : TopOk master) (slot : Nat) (selected : MovementGenerator)
    (hupdate : master.cleanFlag.update = true → slot = master.size - 1 →
      master.expireList = [] → master.slot slot = some .idle →
        ReadyBelow master (master.size - 1)) :
    KeepsTop master (master.clearSlot slot selected) := by
  unfold MotionMaster.clearSlot
  split
  · exact ⟨h, rfl⟩
  · next hvalid =>
    split
    · next hflag =>
      exact keepsTop_of_readyIfIdle hflag (h.shape.cleanSlot slot)
        (h.shape.readyIfIdle_delayedCleanSlot h.readyIfIdle (fun hzero => hvalid (.inl hzero))
          (hupdate hflag)) (congrArg CleanFlag.update cleanFlag_cleanSlot)
    · have hrestored := (@Shape.cleanSlot _ false h.shape slot).restoreTop selected false
      exact Restored.keepsTop ⟨hrestored.shape, hrestored.ready,
        hrestored.cleanFlag.trans cleanFlag_cleanSlot⟩

theorem TopOk.movementExpired (h : TopOk master) (reset : Bool) (selected : MovementGenerator)
    (hupdate : master.cleanFlag.update = true → 1 < master.size → master.expireList = [] →
      master.top = some .idle → ReadyBelow master (master.size - 1)) :
    KeepsTop master (master.movementExpired reset selected) := by
  unfold MotionMaster.movementExpired
  split
  · next hflag =>
    have hset : Shape (master.setResetFlag reset) := h.shape.congr rfl rfl
    apply keepsTop_of_readyIfIdle hflag hset.expire
      (hset.readyIfIdle_delayedExpire h.readyIfIdle (hupdate hflag))
    rw [cleanFlag_expire]
    rfl
  · have hrestored := (@Shape.expire _ false h.shape).restoreTop selected reset
    exact Restored.keepsTop ⟨hrestored.shape, hrestored.ready,
      hrestored.cleanFlag.trans cleanFlag_expire⟩

end MotionMaster

namespace MotionRun

open MotionMaster

/-- The steps that leave the top restored, or leave it to the end of an update that restores
it. -/
def Restores (run : MotionRun) : MotionEvent → Prop
  | .mutate _ _ => True
  | .clear _ =>
    (run.master.cleanFlag.update = true → 1 < run.master.size → run.master.expireList = [] →
      (∀ i curr, 1 ≤ i → i < run.master.size → run.master.slot i = some curr → curr = .idle) →
        run.master.slot 0 ≠ none ∧ run.master.initializeSlot 0 = false) ∧
    (run.master.cleanFlag.update = false → 1 < run.master.size → run.master.slot 0 ≠ none)
  | .clearSlot slot _ =>
    run.master.cleanFlag.update = true → slot = run.master.size - 1 →
      run.master.expireList = [] → run.master.slot slot = some .idle →
        ReadyBelow run.master (run.master.size - 1)
  | .movementExpired _ _ =>
    run.master.cleanFlag.update = true → 1 < run.master.size → run.master.expireList = [] →
      run.master.top = some .idle → ReadyBelow run.master (run.master.size - 1)
  | .beginUpdate => run.master.cleanFlag.update = true → run.master.size ≠ 0
  | .endUpdate _ _ => True

/-- No assertion has failed, the top is kept, and the flag is set only in an update. -/
structure TopInv (run : MotionRun) : Prop where
  alive : run.aborted = false
  topOk : TopOk run.master
  outside : run.updating = [] → run.master.cleanFlag.update = false

theorem topInv_start (selected : MovementGenerator) : TopInv (start selected) := by
  have hempty : Shape ({} : MotionMaster) := ⟨fun _ _ => rfl, fun hne => absurd rfl hne, by decide⟩
  have hrestored := hempty.initializeDefault rfl selected
  exact ⟨rfl, hrestored.keepsTop.topOk, fun _ => congrArg CleanFlag.update hrestored.cleanFlag⟩

/-- An operation on the master keeps the invariant of the run. -/
theorem TopInv.operation (h : TopInv run) (hkeeps : KeepsTop run.master after) :
    TopInv { run with master := after } :=
  ⟨h.alive, hkeeps.topOk, fun hnil => hkeeps.update.trans (h.outside hnil)⟩

theorem TopInv.beginUpdate (h : TopInv run)
    (hne : run.master.cleanFlag.update = true → run.master.size ≠ 0) : TopInv run.beginUpdate := by
  have hsize : run.master.size ≠ 0 := by
    cases hflag : run.master.cleanFlag.update with
    | true => exact hne hflag
    | false => exact (h.topOk.ready (.inl hflag)).1
  obtain ⟨movement, htop⟩ := h.topOk.shape.top_eq_some hsize
  unfold MotionRun.beginUpdate
  rw [if_neg hsize, htop]
  refine ⟨h.alive, ⟨h.topOk.shape.congr rfl rfl, ?_⟩, fun hnil => nomatch hnil⟩
  rintro (hoff | hnil)
  · cases hoff
  · exact (h.topOk.ready (.inr hnil)).congr rfl rfl

theorem TopInv.endUpdate (h : TopInv run) (result : Bool) (selected : MovementGenerator) :
    TopInv (run.endUpdate result selected) := by
  unfold MotionRun.endUpdate
  split
  · exact h
  · obtain ⟨hshape, hready, hflag⟩ :=
      h.topOk.shape.endUpdate h.topOk.readyIfIdle result selected
    exact ⟨h.alive, ⟨hshape, fun _ => hready⟩, fun _ => hflag⟩

theorem TopInv.step (h : TopInv run) (event : MotionEvent) (hrestores : Restores run event) :
    TopInv (run.step event) := by
  unfold MotionRun.step
  rw [if_neg (Bool.eq_false_iff.mp h.alive)]
  cases event with
  | mutate m slot => exact h.operation (h.topOk.mutate m slot.isLt)
  | clear reset => exact h.operation (h.topOk.clear reset hrestores.1 hrestores.2)
  | clearSlot slot selected => exact h.operation (h.topOk.clearSlot slot selected hrestores)
  | movementExpired reset selected =>
    exact h.operation (h.topOk.movementExpired reset selected hrestores)
  | beginUpdate => exact h.beginUpdate hrestores
  | endUpdate result selected => exact h.endUpdate result selected

/-- The master has a running top generator. -/
structure HasRunningTop (master : MotionMaster) : Prop where
  notEmpty : master.size ≠ 0
  top : master.top ≠ none
  above : ∀ i, master.size ≤ i → master.slot i = none
  initialised : master.needInitTop = false

theorem TopInv.hasRunningTop (h : TopInv run) (houtside : run.updating = []) :
    HasRunningTop run.master := by
  obtain ⟨hne, hinit⟩ := h.topOk.ready (.inl (h.outside houtside))
  refine ⟨hne, h.topOk.shape.top hne, h.topOk.shape.above, ?_⟩
  unfold needInitTop
  rw [hinit, Bool.and_false]

/-- In every run whose steps restore the top or leave it to an update that does, no assertion
fails and outside of updates the master has a running top generator. -/
theorem running_top (selected : MovementGenerator) (events : List MotionEvent)
    (hrestores : StateMachine.Admits step Restores (start selected) events) :
    (StateMachine.run step (start selected) events).aborted = false ∧
      ((StateMachine.run step (start selected) events).updating = [] →
        HasRunningTop (StateMachine.run step (start selected) events).master) := by
  have hinv := StateMachine.run_invariant_of_admits (topInv_start selected)
    (fun run event h hok => h.step event hok) events hrestores
  exact ⟨hinv.alive, hinv.hasRunningTop⟩

/-- A follow generator is put over the default one and takes a turn. -/
theorem running_top_one :
    let run := StateMachine.run step (start .idle) [.mutate (.allocated 1) 1, .beginUpdate,
      .movementExpired true .idle, .endUpdate true .idle]
    run.aborted = false ∧ (run.updating = [] → HasRunningTop run.master) := by
  apply running_top
  refine ⟨trivial, ?_, ?_, trivial, trivial⟩
  · exact fun hflag => absurd hflag (by decide)
  · exact fun _ _ _ htop => absurd htop (by decide)

/-- The idle slot is cleared under another generator, and `Clear` takes that one off: nothing is
left, and the next update fails its assertion. -/
theorem running_top_not_after_clear :
    let run := StateMachine.run step (start .idle) [.mutate (.allocated 1) 1, .clearSlot 0 .idle,
      .clear true]
    run.updating = [] ∧ ¬HasRunningTop run.master ∧ (run.step .beginUpdate).aborted = true := by
  refine ⟨by decide, fun h => h.notEmpty (by decide), by decide⟩

end MotionRun

end TrinityCore.Movement
