import TrinityCore.Movement.ExpireList

/-!
# Operations put off to the end of an update

`Clear` and `MovementExpired` have a direct and a delayed copy each. Taking off and deleting
commute, so the two copies differ only in how the top is restored: at the end of an update that is
done if something was listed, and with the reset that `MMCF_RESET` stores by then.
-/

namespace TrinityCore.Movement

open Bool Function StateMachine

/-- One call of `Clear` or `MovementExpired`. -/
inductive MotionOperation where
  | clear (reset : Bool)
  | clearSlot (slot : Nat)
  | movementExpired (reset : Bool)
  deriving DecidableEq, Repr

/-- The operation as an event of a run. -/
def MotionOperation.event (selected : MovementGenerator) : MotionOperation → MotionEvent
  | .clear reset => .clear reset
  | .clearSlot slot => .clearSlot slot selected
  | .movementExpired reset => .movementExpired reset selected

namespace MotionMaster

variable {master other : MotionMaster} {delayed : Bool} {curr selected : MovementGenerator}
  {slot : Nat}

/-- Call the operation. -/
def perform (master : MotionMaster) (selected : MovementGenerator) :
    MotionOperation → MotionMaster
  | .clear reset => master.clear reset
  | .clearSlot slot => master.clearSlot slot selected
  | .movementExpired reset => master.movementExpired reset selected

/-- An update in which the top generator calls the operation and returns `true`. -/
def updateCalling (master : MotionMaster) (operation : MotionOperation)
    (selected : MovementGenerator) : MotionMaster :=
  ((master.setUpdateFlag true).perform selected operation).endUpdate true selected

/-- An update in which the top generator returns `true`, and the operation right after it. -/
def updateThen (master : MotionMaster) (operation : MotionOperation)
    (selected : MovementGenerator) : MotionMaster :=
  ((master.setUpdateFlag true).endUpdate true selected).perform selected operation

/-- Two masters have the same slots, top and flags, and called the same on generators. -/
structure Agrees (master other : MotionMaster) : Prop where
  slot : master.slot = other.slot
  size : master.size = other.size
  cleanFlag : master.cleanFlag = other.cleanFlag
  log : master.log = other.log

end MotionMaster

variable {run : MotionRun}

namespace MotionRun

open MotionMaster

section

variable (halive : run.aborted = false)
include halive

theorem step_operation (operation : MotionOperation)
    (selected : MovementGenerator) :
    run.step (operation.event selected) =
      { run with master := run.master.perform selected operation } := by
  unfold MotionRun.step
  rw [if_neg (eq_false_iff.mp halive)]
  cases operation <;> rfl

theorem step_endUpdate_true {movement : MovementGenerator}
    {updating : List MovementGenerator} (hupdating : run.updating = movement :: updating)
    (selected : MovementGenerator) :
    run.step (.endUpdate true selected) =
      { run with master := run.master.endUpdate true selected, updating := updating } := by
  unfold MotionRun.step
  rw [if_neg (eq_false_iff.mp halive)]
  dsimp only
  unfold MotionRun.endUpdate
  rw [hupdating]
  rfl

theorem step_beginUpdate (hshape : Shape run.master)
    (hne : run.master.size ≠ 0) :
    (run.step .beginUpdate).aborted = false ∧
      (run.step .beginUpdate).master = run.master.setUpdateFlag true ∧
      ∃ movement, (run.step .beginUpdate).updating = movement :: run.updating := by
  obtain ⟨movement, htop⟩ := hshape.top_eq_some hne
  unfold MotionRun.step
  rw [if_neg (eq_false_iff.mp halive)]
  dsimp only
  unfold MotionRun.beginUpdate
  rw [if_neg hne, htop]
  exact ⟨halive, rfl, movement, rfl⟩

/-- The two orders as events of a run. -/
theorem run_updateCalling (hshape : Shape run.master)
    (hne : run.master.size ≠ 0) (operation : MotionOperation) (selected : MovementGenerator) :
    (StateMachine.run step run
        [.beginUpdate, operation.event selected, .endUpdate true selected]).master =
      run.master.updateCalling operation selected ∧
    (StateMachine.run step run
        [.beginUpdate, .endUpdate true selected, operation.event selected]).master =
      run.master.updateThen operation selected := by
  obtain ⟨hbegun, hmaster, movement, hupdating⟩ := step_beginUpdate halive hshape hne
  simp only [run_cons, run_nil]
  generalize run.step .beginUpdate = begun at hbegun hmaster hupdating
  unfold updateCalling updateThen
  rw [← hmaster]
  constructor
  · rw [step_operation hbegun]
    exact congrArg MotionRun.master (@step_endUpdate_true
      { begun with master := begun.master.perform selected operation } hbegun _ _ hupdating
      selected)
  · rw [step_endUpdate_true hbegun hupdating]
    exact congrArg MotionRun.master (@step_operation
      { begun with
        master := begun.master.endUpdate true selected
        updating := run.updating } hbegun operation selected)

end

end MotionRun

namespace MotionMaster

variable {master other : MotionMaster} {delayed : Bool} {curr selected : MovementGenerator}
  {slot : Nat}

/-! ### What is listed -/

/-- The generator in the slot is one that is deleted. -/
def Holds (master : MotionMaster) (slot : Nat) : Prop :=
  ∃ id, master.slot slot = some (.allocated id)

instance (master : MotionMaster) (slot : Nat) : Decidable (master.Holds slot) :=
  match h : master.slot slot with
  | none => .isFalse fun ⟨_, hid⟩ => nomatch h.symm.trans hid
  | some .idle => .isFalse fun ⟨_, hid⟩ => nomatch h.symm.trans hid
  | some (.allocated id) => .isTrue ⟨id, h⟩

theorem holds_iff_of_eq_some (h : master.slot slot = some curr) :
    master.Holds slot ↔ curr ≠ .idle := by
  unfold Holds
  rw [h]
  cases curr with
  | idle => simp
  | allocated id => simp

theorem expireList_popTop_of_not_holds (h : ¬master.Holds (master.size - 1)) :
    (master.popTop true).expireList = master.expireList := by
  unfold popTop
  split
  · exact expireList_pop
  · next curr hcurr =>
    rw [expireList_discard, expireList_pop]
    exact if_neg fun hlisted => h ((holds_iff_of_eq_some hcurr).mpr hlisted.2)

theorem expireList_popAbove_of_not_holds {bound : Nat} (fuel : Nat)
    (h : ∀ i, bound ≤ i → ¬master.Holds i) :
    (popAbove true bound fuel master).expireList = master.expireList := by
  induction fuel generalizing master with
  | zero => rfl
  | succ fuel ih =>
    unfold popAbove
    split
    · next hlt =>
      rw [ih, expireList_popTop_of_not_holds (h _ (by omega))]
      -- What is left was there before.
      rintro i hi ⟨id, hid⟩
      rw [slot_popTop (by omega), update_apply] at hid
      split at hid
      · cases hid
      · exact h i hi ⟨id, hid⟩
    · rfl

/-- `DelayedClean` lists something if a generator above the idle slot is deleted. -/
theorem Resting.expireList_delayedClean (h : Resting master) :
    (popAbove true 1 master.size master).expireList = [] ↔
      ∀ i, 1 ≤ i → ¬master.Holds i := by
  constructor
  · rintro hnil i hi ⟨id, hid⟩
    have hlt : i < master.size := by
      by_contra hge
      exact nomatch (h.shape.above i (Nat.le_of_not_lt hge)).symm.trans hid
    exact nomatch (expireList_popAbove_eq_nil (Nat.le_refl _) hnil).2 i _ hi hlt hid
  · intro hnone
    rw [expireList_popAbove_of_not_holds master.size hnone]
    exact h.expireList

/-- `DelayedClean` of a slot lists its generator if that is deleted. -/
theorem Resting.expireList_cleanSlot (h : Resting master) (slot : Nat) :
    (master.cleanSlot true slot).expireList = [] ↔ ¬master.Holds slot := by
  unfold cleanSlot
  split
  · next hnone =>
    rw [expireList_lowerTop, h.expireList]
    exact iff_of_true rfl fun ⟨_, hid⟩ => nomatch hnone.symm.trans hid
  · next motion hmotion =>
    have hlist : (master.setSlot slot none).expireList = [] := h.expireList
    rw [expireList_lowerTop, expireList_discard, hlist, holds_iff_of_eq_some hmotion]
    split
    · next hlisted => exact iff_of_false (by simp) (not_not_intro hlisted.2)
    · next hstatic => exact iff_of_true rfl fun hne => hstatic ⟨rfl, hne⟩

/-- `DelayedExpire` lists the top if it is not the last and is deleted. -/
theorem Resting.expireList_expire (h : Resting master) :
    (master.expire true).expireList = [] ↔
      ¬(1 < master.size ∧ master.Holds (master.size - 1)) := by
  unfold expire
  rw [expireList_lowerTop]
  split
  · next hlt =>
    constructor
    · rintro hnil ⟨-, id, hid⟩
      exact nomatch (expireList_popTop_eq_nil hnil).2 _ hid
    · intro hnone
      rw [expireList_popTop_of_not_holds fun hholds => hnone ⟨hlt, hholds⟩]
      exact h.expireList
  · next hge => exact iff_of_true h.expireList fun hlisted => hge hlisted.1

/-! ### The top that is left -/

/-- The first generator of the stack in another slot is there and has been initialized. -/
def ReadyWithout (master : MotionMaster) (slot : Nat) : Prop :=
  ∃ i < master.size, i ≠ slot ∧ master.slot i ≠ none ∧
    (∀ j < master.size, i < j → j ≠ slot → master.slot j = none) ∧
    master.initializeSlot i = false

theorem ready_iff_readyWithout
    (hslot : other.slot = update master.slot slot none)
    (hsize : other.size = skipEmpty other.slot master.size)
    (hinit : other.initializeSlot = master.initializeSlot) :
    Ready other ↔ ReadyWithout master slot := by
  unfold Ready
  rw [hinit]
  constructor
  · rintro ⟨hne, hready⟩
    have htop := @skipEmpty_top other.slot master.size (by rw [← hsize]; exact hne)
    have hle := skipEmpty_le other.slot master.size
    rw [← hsize] at htop hle
    refine ⟨other.size - 1, by omega, ?_, ?_, ?_, hready⟩
    · intro heq
      rw [heq, hslot, update_self] at htop
      exact htop rfl
    · intro hnone
      apply htop
      rw [hslot, update_apply, hnone, ite_self]
    · intro j hj hlt hother
      have hskipped := @skipEmpty_skipped other.slot master.size j (by omega) hj
      rw [hslot, update_of_ne hother] at hskipped
      exact hskipped
  · rintro ⟨i, hi, hother, hsome, hnone, hready⟩
    have hfirst : skipEmpty other.slot master.size = i + 1 := by
      refine skipEmpty_eq hi ?_ fun j hij hj => ?_
      · rw [hslot, update_of_ne hother]
        exact hsome
      · rw [hslot, update_apply]
        split
        · rfl
        · next hne => exact hnone j hj hij hne
    rw [hsize, hfirst]
    exact ⟨Nat.succ_ne_zero i, hready⟩

theorem ready_cleanSlot_iff :
    Ready (master.cleanSlot delayed slot) ↔ ReadyWithout master slot := by
  have hslots : (master.cleanSlot delayed slot).slot =
      update master.slot slot none := by
    unfold cleanSlot
    split
    · next hnone =>
      rw [slot_lowerTop, ← hnone, update_eq_self]
    · exact slot_discard
  apply ready_iff_readyWithout hslots
  · unfold cleanSlot
    split
    · rfl
    · show skipEmpty _ _ = _
      rw [size_discard]
      rfl
  · exact initializeSlot_cleanSlot

/-- The slot that `DirectExpire` empties: the top, or none if that is the last. -/
def expiring (master : MotionMaster) : Nat :=
  if 1 < master.size then master.size - 1 else master.size

theorem Shape.ready_expire_iff (h : Shape master) :
    Ready (master.expire delayed) ↔ ReadyWithout master master.expiring := by
  unfold expiring
  split
  · next hlt =>
    have hexpire : master.expire delayed = master.popTop delayed := by
      unfold MotionMaster.expire
      rw [if_pos hlt, h.popTop.lowerTop_eq]
    rw [hexpire]
    apply ready_iff_readyWithout (slot_popTop (by omega))
    · rw [size_popTop, slot_popTop (by omega), MotionMaster.pop, if_neg (by omega)]
      rfl
    · exact initializeSlot_popTop
  · next hge =>
    have hexpire : master.expire delayed = master.lowerTop := by
      unfold MotionMaster.expire
      rw [if_neg hge]
    rw [hexpire]
    refine ready_iff_readyWithout ?_ rfl rfl
    rw [slot_lowerTop, ← h.above master.size (Nat.le_refl _), update_eq_self]

/-! ### When the two orders agree -/

/-- The operation in an update ends like the one right after it. If something is listed, no
earlier `MMCF_RESET` may be left over; if nothing is, the top must not need anything. -/
def Deferrable (master : MotionMaster) : MotionOperation → Prop
  | .clear reset =>
    ((∃ i, 1 ≤ i ∧ master.Holds i) ∧ master.slot 0 ≠ none ∧ master.cleanFlag.reset = false) ∨
      ((∀ i, 1 ≤ i → ¬master.Holds i) ∧ master.cleanFlag.reset = reset ∧
        (master.slot 0 = none ∨ master.initializeSlot 0 = false ∧ reset = false))
  | .clearSlot slot =>
    maxMotionSlot ≤ slot ∨ (master.Holds slot ∧ master.cleanFlag.reset = false) ∨
      (¬master.Holds slot ∧ master.ReadyWithout slot)
  | .movementExpired reset =>
    master.cleanFlag.reset = false ∧
      ((1 < master.size ∧ master.Holds (master.size - 1)) ∨
        (reset = false ∧ master.ReadyWithout master.expiring))

/-- The end of an update in which something was listed. -/
theorem Shape.endUpdate_of_listed {listed direct : MotionMaster} (h : Shape direct)
    {reset : Bool} (hflush : listed.flush = direct.setCleanFlag ⟨true, reset⟩)
    (hlist : listed.expireList ≠ []) (selected : MovementGenerator) :
    listed.endUpdate true selected =
      (direct.restoreTop selected reset).setCleanFlag ⟨false, false⟩ := by
  have hflags : listed.cleanFlag = ⟨true, reset⟩ := congrArg cleanFlag hflush
  have hoff : (listed.setUpdateFlag false).flush = direct.setCleanFlag ⟨false, reset⟩ := by
    have hset : (listed.setUpdateFlag false).flush = listed.flush.setUpdateFlag false := rfl
    rw [hset, hflush]
    rfl
  have hreset : (listed.setUpdateFlag false).cleanFlag.reset = reset :=
    congrArg CleanFlag.reset hflags
  have hsame : (listed.setUpdateFlag false).expireList.isEmpty = false :=
    List.isEmpty_eq_false_iff.mpr hlist
  unfold MotionMaster.endUpdate
  dsimp only
  rw [if_pos rfl, hsame, if_neg Bool.false_ne_true, clearExpireList_eq, hreset, hoff,
    h.restoreTop_setCleanFlag]
  rfl

/-- The end of an update in which nothing was listed. -/
theorem endUpdate_of_not_listed {listed direct : MotionMaster} {reset : Bool}
    (hflush : listed.flush = direct.setCleanFlag ⟨true, reset⟩)
    (hlist : listed.expireList = []) (selected : MovementGenerator) :
    listed.endUpdate true selected = direct.setCleanFlag ⟨false, reset⟩ := by
  rw [flush_of_expireList_eq_nil hlist] at hflush
  subst hflush
  unfold endUpdate
  dsimp only
  rw [if_pos rfl]
  exact if_pos (List.isEmpty_iff.mpr hlist)

theorem cleanFlag_eq {flag : CleanFlag} {update reset : Bool} (hupdate : flag.update = update)
    (hreset : flag.reset = reset) : flag = ⟨update, reset⟩ := by
  subst hupdate hreset
  rfl

/-- When something was listed the top is restored either way. -/
theorem Shape.agrees_listed_iff (h : Shape master) {deferred direct : Bool}
    (hreset : master.cleanFlag.reset = false → deferred = direct)
    (hupdate : master.cleanFlag.update = false) :
    Agrees ((master.restoreTop selected deferred).setCleanFlag ⟨false, false⟩)
      (master.restoreTop selected direct) ↔ master.cleanFlag.reset = false := by
  have hrestored := h.restoreTop selected direct
  constructor
  · intro hagrees
    have hflag := hagrees.cleanFlag
    rw [hrestored.cleanFlag] at hflag
    exact congrArg CleanFlag.reset hflag.symm
  · intro hclear
    have hflag : master.cleanFlag = ⟨false, false⟩ := cleanFlag_eq hupdate hclear
    rw [hreset hclear]
    exact ⟨rfl, rfl, hflag.symm.trans hrestored.cleanFlag.symm, rfl⟩

/-- When nothing was listed the top is restored only if it needs nothing. -/
theorem Shape.agrees_unlisted_iff (h : Shape master) {deferred direct : Bool}
    (hupdate : master.cleanFlag.update = false) :
    Agrees (master.setCleanFlag ⟨false, deferred⟩) (master.restoreTop selected direct) ↔
      master.cleanFlag.reset = deferred ∧ direct = false ∧ Ready master := by
  have hrestored := h.restoreTop selected direct
  constructor
  · intro hagrees
    have hflag := hagrees.cleanFlag
    rw [hrestored.cleanFlag] at hflag
    have hne : master.size ≠ 0 := by
      rw [show master.size = _ from hagrees.size]
      exact hrestored.ready.1
    obtain ⟨movement, htop⟩ := h.top_eq_some hne
    have hlog : master.log = (master.restoreTop selected direct).log := hagrees.log
    unfold MotionMaster.restoreTop at hlog
    rw [if_neg hne] at hlog
    split at hlog
    · -- Initializing the top is logged.
      unfold MotionMaster.initTop at hlog
      rw [htop] at hlog
      simp [call, setInitialize] at hlog
    · next hneed =>
      refine ⟨congrArg CleanFlag.reset hflag.symm, ?_, ready_of_not_needInitTop hne hneed⟩
      split at hlog
      · -- So is resetting it.
        unfold MotionMaster.resetTop at hlog
        rw [htop] at hlog
        simp [call] at hlog
      · next hreset => exact eq_false_iff.mpr hreset
  · rintro ⟨hflag, rfl, hready⟩
    have hneed : ¬master.needInitTop = true := by
      unfold needInitTop
      rw [hready.2, Bool.and_false]
      exact Bool.false_ne_true
    have hsame : master.restoreTop selected false = master := by
      unfold MotionMaster.restoreTop
      rw [if_neg hready.1, if_neg hneed, if_neg Bool.false_ne_true]
    rw [hsame]
    exact ⟨rfl, rfl, (cleanFlag_eq hupdate hflag).symm, rfl⟩

section

variable (h : Resting master)
include h

theorem Resting.endUpdate_setUpdateFlag (selected : MovementGenerator) :
    (master.setUpdateFlag true).endUpdate true selected = master := by
  have hoff : (master.setUpdateFlag true).setUpdateFlag false = master := by
    unfold setUpdateFlag
    dsimp only
    rw [← h.update]
  unfold endUpdate
  dsimp only
  rw [hoff, if_pos rfl]
  exact if_pos (List.isEmpty_iff.mpr h.expireList)

theorem Resting.updateThen_eq (operation : MotionOperation)
    (selected : MovementGenerator) :
    master.updateThen operation selected = master.perform selected operation := by
  unfold updateThen
  rw [h.endUpdate_setUpdateFlag]

theorem Resting.flush_setCleanFlag (flag : CleanFlag) :
    (master.setCleanFlag flag).flush = master.setCleanFlag flag :=
  flush_of_expireList_eq_nil h.expireList

theorem Resting.agrees_clear_iff (reset : Bool)
    (selected : MovementGenerator) :
    Agrees (master.updateCalling (.clear reset) selected) (master.perform selected (.clear reset)) ↔
      master.Deferrable (.clear reset) := by
  have hpopped := @popAbove_spec master false h.shape 1 master.size (Nat.le_refl _)
  have hlist := h.expireList_delayedClean
  rw [show (popAbove true 1 master.size master).expireList =
    (popAbove true 1 master.size (master.setCleanFlag ⟨true, reset⟩)).expireList by
      rw [popAbove_setCleanFlag]; rfl] at hlist
  have hflush : (popAbove true 1 master.size (master.setCleanFlag ⟨true, reset⟩)).flush =
      (popAbove false 1 master.size master).setCleanFlag ⟨true, reset⟩ := by
    rw [flush_popAbove, h.flush_setCleanFlag, popAbove_setCleanFlag]
  have hdeferred : master.updateCalling (.clear reset) selected =
      (popAbove true 1 master.size (master.setCleanFlag ⟨true, reset⟩)).endUpdate true
        selected := rfl
  have hdirect : master.perform selected (.clear reset) = master.directClean reset :=
    if_neg (eq_false_iff.mp h.update)
  have hupdate : (popAbove false 1 master.size master).cleanFlag.update = false := by
    rw [hpopped.cleanFlag]
    exact h.update
  have hreset : (popAbove false 1 master.size master).cleanFlag.reset = master.cleanFlag.reset :=
    congrArg CleanFlag.reset hpopped.cleanFlag
  have hidle : (popAbove false 1 master.size master).size = 0 ↔ master.slot 0 = none := by
    rw [← hpopped.slot 0 Nat.one_pos]
    constructor
    · exact fun hzero => hpopped.shape.above 0 (Nat.le_of_eq hzero)
    · intro hnone
      by_contra hne
      have hone := hpopped.size_le
      have htop := hpopped.shape.top hne
      rw [show (popAbove false 1 master.size master).size - 1 = 0 by omega] at htop
      exact htop hnone
  rw [hdeferred, hdirect, @directClean_eq master selected reset]
  have hshape := hpopped.shape
  generalize popAbove true 1 master.size (master.setCleanFlag ⟨true, reset⟩) = listed at *
  generalize popAbove false 1 master.size master = direct at *
  unfold Deferrable
  by_cases hnone : ∀ i, 1 ≤ i → ¬master.Holds i
  · have hnot : ¬∃ i, 1 ≤ i ∧ master.Holds i := fun ⟨i, hi, hholds⟩ => hnone i hi hholds
    rw [endUpdate_of_not_listed hflush (hlist.mpr hnone) selected]
    by_cases hzero : direct.size = 0
    · rw [if_pos hzero]
      constructor
      · intro hagrees
        have hstored := congrArg CleanFlag.reset hagrees.cleanFlag
        exact .inr ⟨hnone, hreset.symm.trans hstored.symm, .inl (hidle.mp hzero)⟩
      · rintro (⟨hholds, -⟩ | ⟨-, hstored, -⟩)
        · exact absurd hholds hnot
        · exact ⟨rfl, rfl, (cleanFlag_eq hupdate (hreset.trans hstored)).symm, rfl⟩
    · have hone : direct.size = 1 := by
        have := hpopped.size_le
        omega
      have hready : Ready direct ↔ master.initializeSlot 0 = false := by
        unfold Ready
        rw [hone, hpopped.initializeSlot]
        simp
      rw [if_neg hzero, hshape.agrees_unlisted_iff hupdate, hreset, hready]
      constructor
      · rintro ⟨hstored, hdirect, hinit⟩
        exact .inr ⟨hnone, hstored, .inr ⟨hinit, hdirect⟩⟩
      · rintro (⟨hholds, -⟩ | ⟨-, hstored, hempty | ⟨hinit, hdirect⟩⟩)
        · exact absurd hholds hnot
        · exact absurd (hidle.mpr hempty) hzero
        · exact ⟨hstored, hdirect, hinit⟩
  · have hholds : ∃ i, 1 ≤ i ∧ master.Holds i := by
      push Not at hnone
      exact hnone
    rw [hshape.endUpdate_of_listed hflush (fun hnil => hnone (hlist.mp hnil)) selected]
    by_cases hzero : direct.size = 0
    · -- The update initializes a stack that `Clear` leaves empty.
      rw [if_pos hzero]
      have hrestored := hshape.restoreTop selected reset
      constructor
      · intro hagrees
        have hsize : (direct.restoreTop selected reset).size = direct.size := hagrees.size
        exact absurd (hsize.trans hzero) hrestored.ready.1
      · rintro (⟨-, hsome, -⟩ | ⟨hnot, -⟩)
        · exact absurd (hidle.mp hzero) hsome
        · exact absurd hnot hnone
    · rw [if_neg hzero, hshape.agrees_listed_iff (fun _ => rfl) hupdate, hreset]
      constructor
      · exact fun hclear => .inl ⟨hholds, fun hempty => hzero (hidle.mpr hempty), hclear⟩
      · rintro (⟨-, -, hclear⟩ | ⟨hnot, -⟩)
        · exact hclear
        · exact absurd hnot hnone

theorem Resting.agrees_clearSlot_iff (hne : master.size ≠ 0) (slot : Nat)
    (selected : MovementGenerator) :
    Agrees (master.updateCalling (.clearSlot slot) selected)
      (master.perform selected (.clearSlot slot)) ↔ master.Deferrable (.clearSlot slot) := by
  by_cases hinvalid : maxMotionSlot ≤ slot
  · have hignored : ∀ before : MotionMaster, before.clearSlot slot selected = before :=
      fun _ => if_pos (Or.inr hinvalid)
    have hdeferred : master.updateCalling (.clearSlot slot) selected = master := by
      unfold updateCalling perform
      dsimp only
      rw [hignored, h.endUpdate_setUpdateFlag]
    rw [hdeferred, show master.perform selected (.clearSlot slot) = master from hignored master]
    exact iff_of_true ⟨rfl, rfl, rfl, rfl⟩ (.inl hinvalid)
  · have hvalid : ¬(master.size = 0 ∨ maxMotionSlot ≤ slot) :=
      fun hor => hor.elim hne hinvalid
    have hlist := h.expireList_cleanSlot slot
    rw [show (master.cleanSlot true slot).expireList =
      ((master.setCleanFlag ⟨true, master.cleanFlag.reset⟩).cleanSlot true slot).expireList by
        rw [cleanSlot_setCleanFlag]; rfl] at hlist
    have hflush :
        ((master.setCleanFlag ⟨true, master.cleanFlag.reset⟩).cleanSlot true slot).flush =
          (master.cleanSlot false slot).setCleanFlag ⟨true, master.cleanFlag.reset⟩ := by
      rw [flush_cleanSlot, h.flush_setCleanFlag, cleanSlot_setCleanFlag]
    have hdeferred : master.updateCalling (.clearSlot slot) selected =
        ((master.setCleanFlag ⟨true, master.cleanFlag.reset⟩).cleanSlot true slot).endUpdate true
          selected :=
      congrArg (endUpdate · true selected) ((if_neg hvalid).trans (if_pos rfl))
    have hdirect : master.perform selected (.clearSlot slot) =
        (master.cleanSlot false slot).restoreTop selected false :=
      (if_neg hvalid).trans (if_neg (eq_false_iff.mp h.update))
    have hshape := @Shape.cleanSlot master false h.shape slot
    have hupdate : (master.cleanSlot false slot).cleanFlag.update = false := by
      rw [cleanFlag_cleanSlot]
      exact h.update
    have hreset :
        (master.cleanSlot false slot).cleanFlag.reset = master.cleanFlag.reset := by
      rw [cleanFlag_cleanSlot]
    rw [hdeferred, hdirect]
    unfold Deferrable
    by_cases hholds : master.Holds slot
    · rw [hshape.endUpdate_of_listed hflush (fun hnil => hlist.mp hnil hholds) selected,
        hshape.agrees_listed_iff (fun hclear => hreset.symm.trans hclear) hupdate, hreset]
      constructor
      · exact fun hclear => .inr (.inl ⟨hholds, hclear⟩)
      · rintro (hslot | ⟨-, hclear⟩ | ⟨hnot, -⟩)
        · exact absurd hslot hinvalid
        · exact hclear
        · exact absurd hholds hnot
    · rw [endUpdate_of_not_listed hflush (hlist.mpr hholds) selected,
        hshape.agrees_unlisted_iff hupdate, ready_cleanSlot_iff]
      constructor
      · exact fun hneeds => .inr (.inr ⟨hholds, hneeds.2.2⟩)
      · rintro (hslot | ⟨hlisted, -⟩ | ⟨-, hready⟩)
        · exact absurd hslot hinvalid
        · exact absurd hlisted hholds
        · exact ⟨hreset, rfl, hready⟩

theorem Resting.agrees_movementExpired_iff (reset : Bool)
    (selected : MovementGenerator) :
    Agrees (master.updateCalling (.movementExpired reset) selected)
      (master.perform selected (.movementExpired reset)) ↔
        master.Deferrable (.movementExpired reset) := by
  have hlist := h.expireList_expire
  rw [show (master.expire true).expireList =
    ((master.setCleanFlag ⟨true, reset⟩).expire true).expireList by
      rw [expire_setCleanFlag]; rfl] at hlist
  have hflush : ((master.setCleanFlag ⟨true, reset⟩).expire true).flush =
      (master.expire false).setCleanFlag ⟨true, reset⟩ := by
    rw [flush_expire, h.flush_setCleanFlag, expire_setCleanFlag]
  have hdeferred : master.updateCalling (.movementExpired reset) selected =
      ((master.setCleanFlag ⟨true, reset⟩).expire true).endUpdate true selected := rfl
  have hdirect : master.perform selected (.movementExpired reset) =
      (master.expire false).restoreTop selected reset :=
    if_neg (eq_false_iff.mp h.update)
  have hshape := @Shape.expire master false h.shape
  have hupdate : (master.expire false).cleanFlag.update = false := by
    rw [cleanFlag_expire]
    exact h.update
  have hreset : (master.expire false).cleanFlag.reset = master.cleanFlag.reset := by
    rw [cleanFlag_expire]
  rw [hdeferred, hdirect]
  unfold Deferrable
  by_cases hlisted : 1 < master.size ∧ master.Holds (master.size - 1)
  · rw [hshape.endUpdate_of_listed hflush (fun hnil => hlist.mp hnil hlisted) selected,
      hshape.agrees_listed_iff (fun _ => rfl) hupdate, hreset]
    exact ⟨fun hclear => ⟨hclear, .inl hlisted⟩, And.left⟩
  · rw [endUpdate_of_not_listed hflush (hlist.mpr hlisted) selected,
      hshape.agrees_unlisted_iff hupdate, hreset, h.shape.ready_expire_iff]
    constructor
    · rintro ⟨hstored, rfl, hready⟩
      exact ⟨hstored, .inr ⟨rfl, hready⟩⟩
    · rintro ⟨hclear, hother | ⟨rfl, hready⟩⟩
      · exact absurd hother hlisted
      · exact ⟨hclear, rfl, hready⟩

end

/-- An operation in an update ends like the one right after it exactly when it is deferrable. -/
theorem agrees_iff_deferrable (master : MotionMaster) (hresting : Resting master)
    (hne : master.size ≠ 0) (operation : MotionOperation) (selected : MovementGenerator) :
    Agrees (master.updateCalling operation selected) (master.updateThen operation selected) ↔
      master.Deferrable operation := by
  rw [hresting.updateThen_eq]
  cases operation with
  | clear reset => exact hresting.agrees_clear_iff reset selected
  | clearSlot slot => exact hresting.agrees_clearSlot_iff hne slot selected
  | movementExpired reset => exact hresting.agrees_movementExpired_iff reset selected

/-- One generator in the idle slot. -/
def wandering : MotionMaster := (MotionRun.start (.allocated 0)).master

theorem resting_wandering : Resting wandering := MotionRun.resting_run (.allocated 0) [] rfl

/-- Another generator is put over the first one and expires. -/
theorem agrees_iff_deferrable_expired :
    Agrees ((wandering.mutate (.allocated 1) 1).updateCalling (.movementExpired true) .idle)
      ((wandering.mutate (.allocated 1) 1).updateThen (.movementExpired true) .idle) := by
  have hresting : Resting (wandering.mutate (.allocated 1) 1) :=
    MotionRun.resting_run (.allocated 0) [.mutate (.allocated 1) 1] rfl
  apply (agrees_iff_deferrable _ hresting (by decide) _ _).mpr
  exact ⟨rfl, Or.inl ⟨by decide, 1, rfl⟩⟩

/-- `Clear` right after an update resets the only generator. In an update it does not, and
`MMCF_RESET` stays set. -/
theorem not_agrees_clear :
    Resting wandering ∧ wandering.size ≠ 0 ∧
      ¬Agrees (wandering.updateCalling (.clear true) .idle)
        (wandering.updateThen (.clear true) .idle) := by
  refine ⟨resting_wandering, by decide, fun hagrees => ?_⟩
  exact absurd hagrees.cleanFlag (by decide)

end MotionMaster

end TrinityCore.Movement
