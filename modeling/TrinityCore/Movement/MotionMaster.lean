import Mathlib.Data.List.Basic
import TrinityCore.Lib.StateMachine

/-!
# Motion master

`MotionMaster.h` and `MotionMaster.cpp`: the stack of movement generators of a unit, and what is
put off while the top generator updates. A run splits an update at the two points where
`UpdateMotion` calls the generator and where the generator returns, so that a generator may call
anything in between, also another update.
-/

namespace TrinityCore.Movement

/-- A `MovementGenerator*`: the static one of `IdleMovementFactory`, or one made with `new`. -/
inductive MovementGenerator where
  | idle
  | allocated (id : Nat)
  deriving DecidableEq, Repr

/-- `IsStatic`. -/
def MovementGenerator.isStatic (movement : MovementGenerator) : Bool := movement == .idle

/-- What is called on a generator. -/
inductive Callback where
  | onInitialize (movement : MovementGenerator)
  | onReset (movement : MovementGenerator)
  | onFinalize (movement : MovementGenerator)
  | onDelete (movement : MovementGenerator)
  deriving DecidableEq, Repr

/-- `MMCleanFlag`. -/
structure CleanFlag where
  update : Bool := false
  reset : Bool := false
  deriving DecidableEq, Repr

/-- `MAX_MOTION_SLOT`. -/
abbrev maxMotionSlot : Nat := 3

/-- `MovementSlot`. -/
abbrev MovementSlot := Fin maxMotionSlot

/-- `MotionMaster`: its top slot by the number of slots up to it, and, besides its own members,
what was called on generators and the generators that were handed to `Mutate`. -/
structure MotionMaster where
  slot : Nat → Option MovementGenerator := fun _ => none
  initializeSlot : Nat → Bool := fun _ => true
  expireList : List MovementGenerator := []
  size : Nat := 0
  cleanFlag : CleanFlag := {}
  log : List Callback := []
  handed : List MovementGenerator := []

namespace MotionMaster

variable (master : MotionMaster)

/-- `top`, of a stack that is not empty. -/
def top : Option MovementGenerator := master.slot (master.size - 1)

/-- `while (!empty() && !top()) --_top`, from some number of slots. -/
def skipEmpty (slot : Nat → Option MovementGenerator) : Nat → Nat
  | 0 => 0
  | size + 1 => if slot size = none then skipEmpty slot size else size + 1

/-- The loop, on the master. -/
def lowerTop : MotionMaster :=
  { master with size := skipEmpty master.slot master.size }

/-- `_slot[slot] = movement`. -/
def setSlot (slot : Nat) (movement : Option MovementGenerator) : MotionMaster :=
  { master with slot := Function.update master.slot slot movement }

/-- `pop`. -/
def pop : MotionMaster :=
  if master.size = 0 then master
  else (master.setSlot (master.size - 1) none).lowerTop

/-- `NeedInitTop`. -/
def needInitTop : Bool :=
  decide (master.size ≠ 0) && master.initializeSlot (master.size - 1)

/-- `_initialize[slot] = value`. -/
def setInitialize (slot : Nat) (value : Bool) : MotionMaster :=
  { master with initializeSlot := Function.update master.initializeSlot slot value }

/-- Call something on a generator. -/
def call (callback : Callback) : MotionMaster :=
  { master with log := master.log ++ [callback] }

/-- `InitTop`. -/
def initTop : MotionMaster :=
  match master.top with
  | none => master
  | some movement =>
    (master.call (.onInitialize movement)).setInitialize (master.size - 1) false

/-- `top()->Reset(_owner)`. -/
def resetTop : MotionMaster :=
  match master.top with
  | none => master
  | some movement => master.call (.onReset movement)

/-- `DirectDelete`. -/
def directDelete (curr : MovementGenerator) : MotionMaster :=
  if curr.isStatic then master else (master.call (.onFinalize curr)).call (.onDelete curr)

/-- `DelayedDelete`. -/
def delayedDelete (curr : MovementGenerator) : MotionMaster :=
  if curr.isStatic then master else { master with expireList := master.expireList ++ [curr] }

/-- `DelayedDelete` or `DirectDelete`. -/
def discard (delayed : Bool) (master : MotionMaster) (curr : MovementGenerator) : MotionMaster :=
  if delayed then master.delayedDelete curr else master.directDelete curr

/-- `Mutate` before the new generator is in its slot. -/
def makeRoom (slot : Nat) : MotionMaster :=
  match master.slot slot with
  | some curr =>
    (master.setSlot slot none).discard
      (decide (master.size = slot + 1) && master.cleanFlag.update) curr
  | none => if master.size ≤ slot then { master with size := slot + 1 } else master

/-- The rest of `Mutate`. -/
def install (m : MovementGenerator) (slot : Nat) : MotionMaster :=
  let master := master.setSlot slot (some m)
  if slot + 1 < master.size then master.setInitialize slot true
  else (master.setInitialize slot false).call (.onInitialize m)

/-- `Mutate`. -/
def mutate (m : MovementGenerator) (slot : Nat) : MotionMaster :=
  ({ master with handed := m :: master.handed }.makeRoom slot).install m slot

/-- `curr = top(); pop();` and the deletion of `curr`. -/
def popTop (delayed : Bool) (master : MotionMaster) : MotionMaster :=
  match master.top with
  | none => master.pop
  | some curr => master.pop.discard delayed curr

/-- `while (size() > bound)` pop and delete the top, in at most `fuel` rounds. -/
def popAbove (delayed : Bool) (bound : Nat) : Nat → MotionMaster → MotionMaster
  | 0, master => master
  | fuel + 1, master =>
    if bound < master.size then popAbove delayed bound fuel (master.popTop delayed) else master

/-- `Initialize`, with the default generator that the factory selects. -/
def initializeDefault (selected : MovementGenerator) : MotionMaster :=
  (popAbove false 0 master.size master).mutate selected 0

/-- What every direct operation does to the top at its end. -/
def restoreTop (selected : MovementGenerator) (reset : Bool) : MotionMaster :=
  if master.size = 0 then master.initializeDefault selected
  else if master.needInitTop then master.initTop
  else if reset then master.resetTop
  else master

/-- `DirectClean`: an empty stack is left empty. -/
def directClean (reset : Bool) : MotionMaster :=
  let master := popAbove false 1 master.size master
  if master.size = 0 then master
  else if master.needInitTop then master.initTop
  else if reset then master.resetTop
  else master

/-- `DelayedClean`. -/
def delayedClean : MotionMaster := popAbove true 1 master.size master

/-- What `DirectClean` and `DelayedClean` of a slot have in common. -/
def cleanSlot (delayed : Bool) (master : MotionMaster) (slot : Nat) : MotionMaster :=
  match master.slot slot with
  | none => master.lowerTop
  | some motion => ((master.setSlot slot none).discard delayed motion).lowerTop

/-- `DirectClean` of a slot. -/
def directCleanSlot (slot : Nat) (selected : MovementGenerator) : MotionMaster :=
  (master.cleanSlot false slot).restoreTop selected false

/-- `DelayedClean` of a slot. -/
def delayedCleanSlot (slot : Nat) : MotionMaster :=
  master.cleanSlot true slot

/-- What `DirectExpire` and `DelayedExpire` have in common. -/
def expire (delayed : Bool) (master : MotionMaster) : MotionMaster :=
  (if 1 < master.size then master.popTop delayed else master).lowerTop

/-- `DirectExpire`. -/
def directExpire (reset : Bool) (selected : MovementGenerator) : MotionMaster :=
  (master.expire false).restoreTop selected reset

/-- `DelayedExpire`. -/
def delayedExpire : MotionMaster := master.expire true

/-- `ClearExpireList`. -/
def clearExpireList (selected : MovementGenerator) : MotionMaster :=
  let master := { master.expireList.foldl directDelete master with expireList := [] }
  let master := master.restoreTop selected master.cleanFlag.reset
  { master with cleanFlag := { master.cleanFlag with reset := false } }

/-- Store `MMCF_RESET`. -/
def setResetFlag (reset : Bool) : MotionMaster :=
  { master with cleanFlag := { master.cleanFlag with reset := reset } }

/-- Store `MMCF_UPDATE`. -/
def setUpdateFlag (update : Bool) : MotionMaster :=
  { master with cleanFlag := { master.cleanFlag with update := update } }

/-- `Clear`. -/
def clear (reset : Bool) : MotionMaster :=
  if master.cleanFlag.update then (master.setResetFlag reset).delayedClean
  else master.directClean reset

/-- `Clear` of a slot. -/
def clearSlot (slot : Nat) (selected : MovementGenerator) : MotionMaster :=
  if master.size = 0 ∨ maxMotionSlot ≤ slot then master
  else if master.cleanFlag.update then master.delayedCleanSlot slot
  else master.directCleanSlot slot selected

/-- `MovementExpired`. -/
def movementExpired (reset : Bool) (selected : MovementGenerator) : MotionMaster :=
  if master.cleanFlag.update then (master.setResetFlag reset).delayedExpire
  else master.directExpire reset selected

/-- `UpdateMotion` from where the `Update` of the top generator returns. -/
def endUpdate (result : Bool) (selected : MovementGenerator) : MotionMaster :=
  let master := master.setUpdateFlag false
  let master := if result then master else master.movementExpired true selected
  if master.expireList.isEmpty then master else master.clearExpireList selected

end MotionMaster

/-- What happens to a motion master. The generator in the last field is the one that the factory
selects if the event initializes the master. -/
inductive MotionEvent where
  | mutate (m : MovementGenerator) (slot : MovementSlot)
  | clear (reset : Bool)
  | clearSlot (slot : Nat) (selected : MovementGenerator)
  | movementExpired (reset : Bool) (selected : MovementGenerator)
  | beginUpdate
  | endUpdate (result : Bool) (selected : MovementGenerator)
  deriving DecidableEq, Repr

/-- A run of a motion master: the generators whose `Update` is executing, the innermost first,
whether an assertion failed, and for each update that returned `false` and expired a generator,
the generator that returned and the one that was expired. -/
structure MotionRun where
  master : MotionMaster
  updating : List MovementGenerator := []
  aborted : Bool := false
  expired : List (MovementGenerator × MovementGenerator) := []

namespace MotionRun

/-- The start of a run, after `Initialize`. -/
def start (selected : MovementGenerator) : MotionRun :=
  { master := ({} : MotionMaster).initializeDefault selected }

/-- `UpdateMotion` up to the call of `Update`. -/
def beginUpdate (run : MotionRun) : MotionRun :=
  if run.master.size = 0 then { run with aborted := true }
  else match run.master.top with
    | none => { run with aborted := true }
    | some movement =>
      { run with
        master := run.master.setUpdateFlag true
        updating := movement :: run.updating }

/-- The rest of `UpdateMotion` of the innermost update. -/
def endUpdate (run : MotionRun) (result : Bool) (selected : MovementGenerator) : MotionRun :=
  match run.updating with
  | [] => run
  | movement :: updating =>
    { run with
      master := run.master.endUpdate result selected
      updating := updating
      expired :=
        if result = false ∧ 1 < run.master.size then
          match run.master.top with
          | some curr => (movement, curr) :: run.expired
          | none => run.expired
        else run.expired }

/-- The run after an event; an assertion that fails ends it. -/
def step (run : MotionRun) (event : MotionEvent) : MotionRun :=
  if run.aborted then run
  else match event with
    | .mutate m slot => { run with master := run.master.mutate m slot }
    | .clear reset => { run with master := run.master.clear reset }
    | .clearSlot slot selected => { run with master := run.master.clearSlot slot selected }
    | .movementExpired reset selected =>
      { run with master := run.master.movementExpired reset selected }
    | .beginUpdate => run.beginUpdate
    | .endUpdate result selected => run.endUpdate result selected

end MotionRun

end TrinityCore.Movement
