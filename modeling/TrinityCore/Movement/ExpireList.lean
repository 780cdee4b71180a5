import TrinityCore.Movement.MotionStack

/-!
# The expire list

What updates list instead of deleting. Outside of updates nothing is listed, in every run. Listing
what is taken off and deleting it in `ClearExpireList` calls the same as deleting it at once, and
none of the loops reads the flags.
-/

namespace TrinityCore.Movement

open List

namespace MotionMaster

variable {master other : MotionMaster} {delayed : Bool} {curr selected : MovementGenerator}
  {slot : Nat} {flag : CleanFlag}

/-! ### Masters outside of updates -/

/-- Outside of updates nothing is put off. -/
structure Settled (master : MotionMaster) : Prop where
  shape : Shape master
  expireList : master.cleanFlag.update = false → master.expireList = []

/-- No update is executing: the shape is kept and nothing is put off. -/
structure Resting (master : MotionMaster) : Prop where
  shape : Shape master
  update : master.cleanFlag.update = false
  expireList : master.expireList = []

theorem expireList_discard_false : (master.discard false curr).expireList = master.expireList :=
  expireList_discard.trans (if_neg (by simp))

theorem expireList_popTop_false : (master.popTop false).expireList = master.expireList := by
  unfold popTop
  split
  · exact expireList_pop
  · exact expireList_discard_false.trans expireList_pop

theorem expireList_popAbove_false (bound fuel : Nat) (master : MotionMaster) :
    (popAbove false bound fuel master).expireList = master.expireList := by
  induction fuel generalizing master with
  | zero => rfl
  | succ fuel ih =>
    unfold popAbove
    split
    · rw [ih, expireList_popTop_false]
    · rfl

theorem expireList_cleanSlot_false :
    (master.cleanSlot false slot).expireList = master.expireList := by
  unfold cleanSlot
  split
  · rfl
  · rw [expireList_lowerTop, expireList_discard_false]
    rfl

theorem expireList_expire_false : (master.expire false).expireList = master.expireList := by
  unfold expire
  rw [expireList_lowerTop]
  split
  · exact expireList_popTop_false
  · rfl

theorem expireList_mutate_of_resting (hupdate : master.cleanFlag.update = false)
    (m : MovementGenerator) (slot : Nat) :
    (master.mutate m slot).expireList = master.expireList := by
  unfold mutate
  rw [expireList_install]
  unfold makeRoom
  split
  · rw [expireList_discard]
    simp [setSlot, hupdate]
  · split <;> rfl

theorem expireList_restoreTop_of_resting (hupdate : master.cleanFlag.update = false)
    (selected : MovementGenerator) (reset : Bool) :
    (master.restoreTop selected reset).expireList = master.expireList := by
  unfold restoreTop
  split
  · next hempty =>
    unfold initializeDefault
    rw [hempty]
    exact expireList_mutate_of_resting hupdate selected 0
  · split
    · unfold initTop
      split <;> rfl
    · split
      · unfold resetTop
        split <;> rfl
      · rfl

/-- An operation keeps the shape and `MMCF_UPDATE`, and puts nothing off outside of updates. -/
structure KeepsSettled (before after : MotionMaster) : Prop where
  shape : Shape after
  update : after.cleanFlag.update = before.cleanFlag.update
  expireList : before.cleanFlag.update = false → after.expireList = before.expireList

theorem Settled.of_keepsSettled (h : Settled master) (hkeeps : KeepsSettled master other) :
    Settled other := by
  refine ⟨hkeeps.shape, fun hupdate => ?_⟩
  rw [hkeeps.update] at hupdate
  exact (hkeeps.expireList hupdate).trans (h.expireList hupdate)

theorem Shape.keepsSettled_mutate (h : Shape master) (m : MovementGenerator)
    (hslot : slot < maxMotionSlot) : KeepsSettled master (master.mutate m slot) :=
  ⟨h.mutate m hslot, congrArg CleanFlag.update cleanFlag_mutate,
    fun hupdate => expireList_mutate_of_resting hupdate m slot⟩

theorem Shape.keepsSettled_restoreTop (h : Shape master) (selected : MovementGenerator)
    (reset : Bool) : KeepsSettled master (master.restoreTop selected reset) :=
  ⟨(h.restoreTop selected reset).shape,
    congrArg CleanFlag.update (h.restoreTop selected reset).cleanFlag,
    fun hupdate => expireList_restoreTop_of_resting hupdate selected reset⟩

theorem KeepsSettled.trans {between : MotionMaster} (h : KeepsSettled master between)
    (hnext : KeepsSettled between other) : KeepsSettled master other := by
  refine ⟨hnext.shape, hnext.update.trans h.update, fun hupdate => ?_⟩
  exact (hnext.expireList (h.update.trans hupdate)).trans (h.expireList hupdate)

/-- A direct `Clear` empties the stack or restores its top. -/
theorem directClean_eq (reset : Bool) : master.directClean reset =
    if (popAbove false 1 master.size master).size = 0 then popAbove false 1 master.size master
    else (popAbove false 1 master.size master).restoreTop selected reset := by
  unfold directClean restoreTop
  dsimp only
  split <;> rfl

theorem Shape.keepsSettled_clear (h : Shape master) (reset : Bool) :
    KeepsSettled master (master.clear reset) := by
  unfold MotionMaster.clear
  split
  · next hflag =>
    have hset : Shape (master.setResetFlag reset) := h.congr rfl rfl
    have hpopped := @popAbove_spec _ true hset 1 _ (Nat.le_refl _)
    exact ⟨hpopped.shape, (congrArg CleanFlag.update hpopped.cleanFlag).trans rfl,
      fun hupdate => nomatch hflag.symm.trans hupdate⟩
  · have hpopped := @popAbove_spec master false h 1 master.size (Nat.le_refl _)
    have hpop : KeepsSettled master (popAbove false 1 master.size master) :=
      ⟨hpopped.shape, congrArg CleanFlag.update hpopped.cleanFlag,
        fun _ => expireList_popAbove_false 1 master.size master⟩
    rw [@directClean_eq master .idle reset]
    split
    · exact hpop
    · exact hpop.trans (hpopped.shape.keepsSettled_restoreTop .idle reset)

theorem Shape.keepsSettled_clearSlot (h : Shape master) (slot : Nat)
    (selected : MovementGenerator) : KeepsSettled master (master.clearSlot slot selected) := by
  unfold MotionMaster.clearSlot
  split
  · exact ⟨h, rfl, fun _ => rfl⟩
  · split
    · next hflag =>
      exact ⟨h.cleanSlot slot, congrArg CleanFlag.update cleanFlag_cleanSlot,
        fun hupdate => nomatch hflag.symm.trans hupdate⟩
    · have hclean : KeepsSettled master (master.cleanSlot false slot) :=
        ⟨h.cleanSlot slot, congrArg CleanFlag.update cleanFlag_cleanSlot,
          fun _ => expireList_cleanSlot_false⟩
      exact hclean.trans ((h.cleanSlot slot).keepsSettled_restoreTop selected false)

theorem Shape.keepsSettled_movementExpired (h : Shape master) (reset : Bool)
    (selected : MovementGenerator) :
    KeepsSettled master (master.movementExpired reset selected) := by
  unfold MotionMaster.movementExpired
  split
  · next hflag =>
    have hset : Shape (master.setResetFlag reset) := h.congr rfl rfl
    exact ⟨hset.expire, (congrArg CleanFlag.update cleanFlag_expire).trans rfl,
      fun hupdate => nomatch hflag.symm.trans hupdate⟩
  · have hexpire : KeepsSettled master (master.expire false) :=
      ⟨h.expire, congrArg CleanFlag.update cleanFlag_expire, fun _ => expireList_expire_false⟩
    exact hexpire.trans (h.expire.keepsSettled_restoreTop selected reset)

/-! ### Deleting what was listed -/

/-- What the deletion of a generator calls. -/
def deletion (curr : MovementGenerator) : List Callback :=
  if curr.isStatic then [] else [.onFinalize curr, .onDelete curr]

/-- The loop of `ClearExpireList`. -/
def flush (master : MotionMaster) : MotionMaster :=
  { master with log := master.log ++ master.expireList.flatMap deletion, expireList := [] }

theorem directDelete_eq :
    master.directDelete curr = { master with log := master.log ++ deletion curr } := by
  unfold directDelete deletion
  split <;> simp [call]

theorem foldl_directDelete_eq (movements : List MovementGenerator) (master : MotionMaster) :
    movements.foldl directDelete master =
      { master with log := master.log ++ movements.flatMap deletion } := by
  induction movements generalizing master with
  | nil => simp
  | cons movement movements ih => rw [foldl_cons, ih, directDelete_eq]; simp

theorem clearExpireList_eq : master.clearExpireList selected =
    (master.flush.restoreTop selected master.cleanFlag.reset).setResetFlag false := by
  unfold clearExpireList flush
  dsimp only
  rw [foldl_directDelete_eq]
  rfl

theorem flush_of_expireList_eq_nil (h : master.expireList = []) : master.flush = master := by
  unfold flush
  rw [h, flatMap_nil, append_nil, ← h]

/-- A generator that is listed and deleted later is one that is deleted. -/
theorem flush_discard : (master.discard true curr).flush = master.flush.discard false curr := by
  unfold discard delayedDelete flush
  rw [if_pos rfl, if_neg Bool.false_ne_true, directDelete_eq]
  split
  · next hstatic => simp [deletion, hstatic]
  · simp [flatMap_append]

theorem flush_pop : master.pop.flush = master.flush.pop := by
  unfold pop
  split
  · next hempty => exact (if_pos hempty).symm
  · next hne => exact (if_neg hne).symm

theorem flush_popTop : (master.popTop true).flush = master.flush.popTop false := by
  have htop : master.flush.top = master.top := rfl
  unfold popTop
  rw [htop]
  split
  · exact flush_pop
  · rw [flush_discard, flush_pop]

theorem flush_popAbove (bound fuel : Nat) (master : MotionMaster) :
    (popAbove true bound fuel master).flush = popAbove false bound fuel master.flush := by
  induction fuel generalizing master with
  | zero => rfl
  | succ fuel ih =>
    have hsize : master.flush.size = master.size := rfl
    unfold popAbove
    rw [hsize]
    split
    · rw [ih, flush_popTop]
    · rfl

theorem flush_lowerTop : master.lowerTop.flush = master.flush.lowerTop := rfl

theorem flush_setSlot : (master.setSlot slot none).flush = master.flush.setSlot slot none := rfl

theorem flush_cleanSlot :
    (master.cleanSlot true slot).flush = master.flush.cleanSlot false slot := by
  have hslot : master.flush.slot = master.slot := rfl
  unfold cleanSlot
  rw [hslot]
  split
  · exact flush_lowerTop
  · rw [flush_lowerTop, flush_discard, flush_setSlot]

theorem flush_expire : (master.expire true).flush = master.flush.expire false := by
  have hsize : master.flush.size = master.size := rfl
  unfold expire
  rw [flush_lowerTop, hsize]
  split
  · rw [flush_popTop]
  · rfl

/-! ### Runs outside of updates -/

theorem Shape.resting_endUpdate (h : Shape master) (result : Bool)
    (selected : MovementGenerator) : Resting (master.endUpdate result selected) := by
  have hclear : ∀ {before : MotionMaster}, Shape before → before.cleanFlag.update = false →
      Resting (before.clearExpireList selected) := by
    intro before hbefore hupdate
    rw [clearExpireList_eq]
    have hflush : Shape before.flush := hbefore.congr rfl rfl
    have hkeeps := hflush.keepsSettled_restoreTop selected before.cleanFlag.reset
    exact ⟨hkeeps.shape.congr rfl rfl, hkeeps.update.trans hupdate, hkeeps.expireList hupdate⟩
  have hflagged : Shape (master.setUpdateFlag false) := h.congr rfl rfl
  unfold MotionMaster.endUpdate
  dsimp only
  cases result with
  | true =>
    rw [if_pos rfl]
    split
    · next hempty => exact ⟨hflagged, rfl, isEmpty_iff.mp hempty⟩
    · exact hclear hflagged rfl
  | false =>
    have hexpired := hflagged.keepsSettled_movementExpired true selected
    rw [if_neg Bool.false_ne_true]
    split
    · next hempty => exact ⟨hexpired.shape, hexpired.update, isEmpty_iff.mp hempty⟩
    · exact hclear hexpired.shape hexpired.update

end MotionMaster

namespace MotionRun

open MotionMaster StateMachine

/-- The master is settled, and the flag is set only in an update. -/
structure SettledInv (run : MotionRun) : Prop where
  settled : Settled run.master
  outside : run.updating = [] → run.master.cleanFlag.update = false

theorem SettledInv.operation {run : MotionRun} (h : SettledInv run) {after : MotionMaster}
    (hkeeps : KeepsSettled run.master after) : SettledInv { run with master := after } :=
  ⟨h.settled.of_keepsSettled hkeeps, fun hnil => hkeeps.update.trans (h.outside hnil)⟩

theorem settledInv_start (selected : MovementGenerator) : SettledInv (start selected) := by
  have hinv := topInv_start selected
  refine ⟨⟨hinv.topOk.shape, fun _ => ?_⟩, hinv.outside⟩
  exact expireList_mutate_of_resting rfl selected 0

theorem SettledInv.step {run : MotionRun} (h : SettledInv run) (event : MotionEvent) :
    SettledInv (run.step event) := by
  unfold MotionRun.step
  split
  · exact h
  · cases event with
    | mutate m slot => exact h.operation (h.settled.shape.keepsSettled_mutate m slot.isLt)
    | clear reset => exact h.operation (h.settled.shape.keepsSettled_clear reset)
    | clearSlot slot selected =>
      exact h.operation (h.settled.shape.keepsSettled_clearSlot slot selected)
    | movementExpired reset selected =>
      exact h.operation (h.settled.shape.keepsSettled_movementExpired reset selected)
    | beginUpdate =>
      dsimp only
      unfold MotionRun.beginUpdate
      split
      · exact ⟨h.settled, h.outside⟩
      · split
        · exact ⟨h.settled, h.outside⟩
        · exact ⟨⟨h.settled.shape.congr rfl rfl, fun hoff => nomatch hoff⟩,
            fun hnil => nomatch hnil⟩
    | endUpdate result selected =>
      dsimp only
      unfold MotionRun.endUpdate
      split
      · exact h
      · have hresting := h.settled.shape.resting_endUpdate result selected
        exact ⟨⟨hresting.shape, fun _ => hresting.expireList⟩, fun _ => hresting.update⟩

theorem SettledInv.resting {run : MotionRun} (h : SettledInv run) (houtside : run.updating = []) :
    Resting run.master :=
  ⟨h.settled.shape, h.outside houtside, h.settled.expireList (h.outside houtside)⟩

/-- Outside of updates the master of every run is resting. -/
theorem resting_run (selected : MovementGenerator) (events : List MotionEvent)
    (houtside : (run step (start selected) events).updating = []) :
    Resting (run step (start selected) events).master :=
  (run_invariant (settledInv_start selected) (fun _ event h => h.step event)
    events).resting houtside

end MotionRun

namespace MotionMaster

variable {master other : MotionMaster} {delayed : Bool} {curr selected : MovementGenerator}
  {slot : Nat}

/-! ### The flags -/

/-- Store the flags. -/
def setCleanFlag (master : MotionMaster) (flag : CleanFlag) : MotionMaster :=
  { master with cleanFlag := flag }

variable {flag : CleanFlag}

theorem discard_setCleanFlag : (master.setCleanFlag flag).discard delayed curr =
    (master.discard delayed curr).setCleanFlag flag := by
  unfold discard delayedDelete directDelete
  split <;> split <;> rfl

theorem pop_setCleanFlag : (master.setCleanFlag flag).pop = master.pop.setCleanFlag flag := by
  have hsize : (master.setCleanFlag flag).size = master.size := rfl
  unfold pop
  rw [hsize]
  split <;> rfl

theorem popTop_setCleanFlag : (master.setCleanFlag flag).popTop delayed =
    (master.popTop delayed).setCleanFlag flag := by
  have htop : (master.setCleanFlag flag).top = master.top := rfl
  unfold popTop
  rw [htop]
  split
  · exact pop_setCleanFlag
  · rw [pop_setCleanFlag, discard_setCleanFlag]

theorem popAbove_setCleanFlag (bound fuel : Nat) (master : MotionMaster) :
    popAbove delayed bound fuel (master.setCleanFlag flag) =
      (popAbove delayed bound fuel master).setCleanFlag flag := by
  induction fuel generalizing master with
  | zero => rfl
  | succ fuel ih =>
    have hsize : (master.setCleanFlag flag).size = master.size := rfl
    unfold popAbove
    rw [hsize]
    split
    · rw [popTop_setCleanFlag, ih]
    · rfl

theorem cleanSlot_setCleanFlag : (master.setCleanFlag flag).cleanSlot delayed slot =
    (master.cleanSlot delayed slot).setCleanFlag flag := by
  have hslot : (master.setCleanFlag flag).slot = master.slot := rfl
  have hset : (master.setCleanFlag flag).setSlot slot none =
      (master.setSlot slot none).setCleanFlag flag := rfl
  unfold cleanSlot
  rw [hslot, hset]
  split
  · rfl
  · rw [discard_setCleanFlag]
    rfl

theorem expire_setCleanFlag : (master.setCleanFlag flag).expire delayed =
    (master.expire delayed).setCleanFlag flag := by
  have hsize : (master.setCleanFlag flag).size = master.size := rfl
  unfold expire
  rw [hsize]
  split
  · rw [popTop_setCleanFlag]
    rfl
  · rfl

/-- Restoring the top does not read `MMCF_RESET`. -/
theorem Shape.restoreTop_setCleanFlag (h : Shape master) (reset : Bool) :
    (master.setCleanFlag flag).restoreTop selected reset =
      (master.restoreTop selected reset).setCleanFlag flag := by
  have hsize : (master.setCleanFlag flag).size = master.size := rfl
  have htop : (master.setCleanFlag flag).top = master.top := rfl
  have hneed : (master.setCleanFlag flag).needInitTop = master.needInitTop := rfl
  unfold MotionMaster.restoreTop
  rw [hsize, hneed]
  split
  · next hempty =>
    have hnone : master.slot 0 = none := h.above 0 (Nat.le_of_eq hempty)
    unfold MotionMaster.initializeDefault
    rw [hsize, hempty]
    unfold popAbove MotionMaster.mutate makeRoom install
    simp [setCleanFlag, setSlot, hnone, hempty, setInitialize, call]
  · split
    · unfold MotionMaster.initTop
      rw [htop]
      split <;> rfl
    · split
      · unfold MotionMaster.resetTop
        rw [htop]
        split <;> rfl
      · rfl

end MotionMaster

end TrinityCore.Movement
