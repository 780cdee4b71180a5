import TrinityCore.Lib.Agenda
import TrinityCore.Lib.StateMachine

/-!
# The task scheduler

`TaskScheduler.h` and `TaskScheduler.cpp`: tasks behind shared pointers, a queue of pointers, and
contexts through which callbacks edit the queue while their own task is outside of it. The
scheduler is written over the interface of its queue. Durations and times are in the unit of the
clock; a callback is the list of what it does, for everything that has been invoked so far. Asyncs
and validators are left out.
-/

namespace TrinityCore.Utilities

/-- `TaskScheduler::Task`; a handler is a number that its callback is known by. -/
structure Task where
  endTime : Nat := 0
  duration : Nat := 0
  group : Option UInt32 := none
  repeated : UInt32 := 0
  handler : Nat := 0
  deriving DecidableEq, Repr

/-- `IsInGroup`. -/
def Task.isInGroup (task : Task) (group : UInt32) : Bool := task.group == some group

/-- What `Repeat` makes of a task, with the duration it has where none is given. -/
def Task.again (task : Task) (duration : Option Nat) : Task :=
  let duration := duration.getD task.duration
  { task with
    duration := duration
    endTime := task.endTime + duration
    repeated := task.repeated + 1 }

/-- A pointer to a task. -/
abbrev TaskContainer := Nat

/-- `TaskScheduler::TaskQueue`: a queue of pointers, given what they point to. -/
class TaskQueue (Q : Type) where
  clear : Q
  push (task : TaskContainer → Task) (queue : Q) (container : TaskContainer) : Q
  /-- `First`, absent where `IsEmpty`. -/
  first (task : TaskContainer → Task) (queue : Q) : Option TaskContainer
  pop (task : TaskContainer → Task) (queue : Q) : Q
  removeIf (task : TaskContainer → Task) (queue : Q) (filter : Task → Bool) : Q
  contains (queue : Q) (container : TaskContainer) : Bool
  /-- The part of `ModifyIf` that is not the filter's: what it holds for is taken out, and put in
  again with what the filter has made of the tasks. -/
  reinsert (before after : TaskContainer → Task) (queue : Q) (filter : Task → Bool) : Q

/-- `std::multiset<TaskContainer, Compare>`: pointers in the order of `_end`, equals in the order
of their insertion. -/
structure TaskMultiset where
  container : List TaskContainer := []
  deriving DecidableEq, Repr

instance : TaskQueue TaskMultiset where
  clear := {}
  push task queue container :=
    { container := insertLast (fun c => (task c).endTime) container queue.container }
  first _ queue := queue.container.head?
  pop _ queue := { container := queue.container.tail }
  removeIf task queue filter := { container := queue.container.filter fun c => !filter (task c) }
  contains queue container := queue.container.contains container
  reinsert before after queue filter :=
    { container := insertAllLast (fun c => (after c).endTime)
        (queue.container.filter fun c => filter (before c))
        (queue.container.filter fun c => !filter (before c)) }

/-- `TaskScheduler`, with the tasks that were allocated for it. -/
structure TaskScheduler (Q : Type) where
  now : Nat := 0
  taskHolder : Q
  task : TaskContainer → Task := fun _ => {}
  allocated : Nat := 0

/-- What is done to the queued tasks, by the script that owns the scheduler or by a callback
through its context. -/
inductive QueueOp where
  | cancelAll
  | cancelGroup (group : UInt32)
  | cancelGroupsOf (groups : List UInt32)
  | delayAll (duration : Nat)
  | delayGroup (group : UInt32) (duration : Nat)
  | rescheduleAll (duration : Nat)
  | rescheduleGroup (group : UInt32) (duration : Nat)
  deriving DecidableEq, Repr

/-- What a callback does through its context. `Repeat` without a duration repeats with the one the
task has. -/
inductive ContextOp where
  | queueOp (op : QueueOp)
  | schedule (time : Nat) (group : Option UInt32) (handler : Nat)
  | repeatTask (duration : Option Nat)
  deriving DecidableEq, Repr

/-- `TaskContext`. -/
structure TaskContext where
  task : TaskContainer
  consumed : Bool := false
  deriving DecidableEq, Repr

/-- A task that was invoked, what it was then, and the time of the scheduler. -/
structure Invocation where
  container : TaskContainer
  task : Task
  now : Nat
  deriving DecidableEq, Repr

/-- What a callback does, by the invocations up to its own. -/
abbrev TaskCallbacks := List Invocation → List ContextOp

variable {Q : Type} [TaskQueue Q]

namespace TaskScheduler

/-- `_end += duration`. -/
def delayed (duration : Nat) (task : Task) : Task :=
  { task with endTime := task.endTime + duration }

/-- `_end = end`. -/
def rescheduled (endTime : Nat) (task : Task) : Task := { task with endTime := endTime }

/-- `RemoveIf`. -/
def removeIf (scheduler : TaskScheduler Q) (filter : Task → Bool) : TaskScheduler Q :=
  { scheduler with
    taskHolder := TaskQueue.removeIf scheduler.task scheduler.taskHolder filter }

variable (scheduler : TaskScheduler Q)

/-- `ModifyIf` with a filter that changes the tasks it holds for. -/
def modifyIf (filter : Task → Bool) (change : Task → Task) : TaskScheduler Q :=
  let task : TaskContainer → Task := fun c =>
    if TaskQueue.contains scheduler.taskHolder c && filter (scheduler.task c)
      then change (scheduler.task c) else scheduler.task c
  { scheduler with
    task := task
    taskHolder := TaskQueue.reinsert scheduler.task task scheduler.taskHolder filter }

/-- `CancelAll`, `CancelGroup`, `CancelGroupsOf`, `DelayAll`, `DelayGroup`, `RescheduleAll` and
`RescheduleGroup`. -/
def queueOp : QueueOp → TaskScheduler Q
  | .cancelAll => { scheduler with taskHolder := TaskQueue.clear }
  | .cancelGroup group => scheduler.removeIf (·.isInGroup group)
  | .cancelGroupsOf groups =>
    groups.foldl (fun scheduler group => scheduler.removeIf (·.isInGroup group)) scheduler
  | .delayAll duration => scheduler.modifyIf (fun _ => true) (delayed duration)
  | .delayGroup group duration => scheduler.modifyIf (·.isInGroup group) (delayed duration)
  | .rescheduleAll duration =>
    scheduler.modifyIf (fun _ => true) (rescheduled (scheduler.now + duration))
  | .rescheduleGroup group duration =>
    scheduler.modifyIf (·.isInGroup group) (rescheduled (scheduler.now + duration))

/-- `InsertTask`. -/
def insertTask (container : TaskContainer) : TaskScheduler Q :=
  { scheduler with
    taskHolder := TaskQueue.push scheduler.task scheduler.taskHolder container }

/-- What a pointer points to from now on. -/
def setTask (container : TaskContainer) (task : Task) : TaskScheduler Q :=
  { scheduler with task := fun c => if c = container then task else scheduler.task c }

/-- `ScheduleAt`. -/
def scheduleAt (endTime time : Nat) (group : Option UInt32) (handler : Nat) : TaskScheduler Q :=
  let task : Task :=
    { endTime := endTime + time, duration := time, group := group, handler := handler }
  ({ scheduler.setTask scheduler.allocated task with
    allocated := scheduler.allocated + 1 } : TaskScheduler Q).insertTask scheduler.allocated

/-- `Schedule`. -/
def schedule (time : Nat) (group : Option UInt32) (handler : Nat) : TaskScheduler Q :=
  scheduler.scheduleAt scheduler.now time group handler

end TaskScheduler

/-- One call on a context; none where an assertion fails. -/
def TaskContext.call (state : TaskScheduler Q × TaskContext) :
    ContextOp → Option (TaskScheduler Q × TaskContext)
  | .queueOp op => some (state.1.queueOp op, state.2)
  | .schedule time group handler =>
    some (state.1.scheduleAt (state.1.task state.2.task).endTime time group handler, state.2)
  | .repeatTask duration =>
    if state.2.consumed then none
    else
      let task := (state.1.task state.2.task).again duration
      some ((state.1.setTask state.2.task task).insertTask state.2.task,
        { state.2 with consumed := true })

/-- A scheduler, what it has invoked, and whether an assertion failed. -/
structure SchedulerRun (Q : Type) where
  scheduler : TaskScheduler Q
  history : List Invocation := []
  aborted : Bool := false

namespace SchedulerRun

/-- `context.Invoke()` of a task that was popped. -/
def invoke (callbacks : TaskCallbacks) (run : SchedulerRun Q) (container : TaskContainer) :
    SchedulerRun Q :=
  let history := run.history ++
    [{ container := container, task := run.scheduler.task container, now := run.scheduler.now }]
  match (callbacks history).foldlM TaskContext.call (run.scheduler, { task := container }) with
  | none => { run with history := history, aborted := true }
  | some (scheduler, _) => { run with scheduler := scheduler, history := history }

/-- `_task_holder.Pop()`. -/
def pop (run : SchedulerRun Q) : SchedulerRun Q :=
  { run with scheduler := { run.scheduler with
      taskHolder := TaskQueue.pop run.scheduler.task run.scheduler.taskHolder } }

/-- The loop of `Dispatch`, of at most `fuel` rounds. -/
def dispatch (callbacks : TaskCallbacks) : Nat → SchedulerRun Q → Option (SchedulerRun Q)
  | 0, _ => none
  | fuel + 1, run =>
    if run.aborted then some run
    else match TaskQueue.first run.scheduler.task run.scheduler.taskHolder with
      | none => some run
      | some container =>
        if run.scheduler.now < (run.scheduler.task container).endTime then some run
        else dispatch callbacks fuel (run.pop.invoke callbacks container)

end SchedulerRun

/-- What the owner of a scheduler does. -/
inductive SchedulerEvent where
  | queueOp (op : QueueOp)
  | schedule (time : Nat) (group : Option UInt32) (handler : Nat)
  | update (difftime : Nat)
  deriving DecidableEq, Repr

namespace SchedulerRun

/-- `_now += difftime`. -/
def wait (run : SchedulerRun Q) (difftime : Nat) : SchedulerRun Q :=
  { run with scheduler := { run.scheduler with now := run.scheduler.now + difftime } }

/-- One event, with `fuel` rounds for an update. -/
def step (callbacks : TaskCallbacks) (fuel : Nat) (run : SchedulerRun Q) (event : SchedulerEvent) :
    Option (SchedulerRun Q) :=
  if run.aborted then some run
  else match event with
    | .queueOp op => some { run with scheduler := run.scheduler.queueOp op }
    | .schedule time group handler =>
      some { run with scheduler := run.scheduler.schedule time group handler }
    | .update difftime => dispatch callbacks fuel (run.wait difftime)

/-- A scheduler that was just constructed. -/
def start (now : Nat) : SchedulerRun Q :=
  { scheduler := { now := now, taskHolder := TaskQueue.clear } }

/-- The run of some events from the start. -/
def runEvents (callbacks : TaskCallbacks) (fuel now : Nat) (events : List SchedulerEvent) :
    Option (SchedulerRun Q) :=
  events.foldlM (step callbacks fuel) (start now)

end SchedulerRun

end TrinityCore.Utilities
