import TrinityCore.Utilities.TaskScheduler

/-!
# The task scheduler on an agenda

The scheduler whose queue is an agenda, and the refinement: the scheduler on the ordered multiset
does what the one on the agenda does, through every callback that edits the queue.
-/

namespace TrinityCore.Utilities

open Bool List StateMachine TaskScheduler

instance : TaskQueue (ItemAgenda TaskContainer) where
  clear := {}
  push _ queue container := queue.plan container
  first task queue := (queue.first fun c => (task c).endTime).map Planned.item
  pop task queue := queue.removeFirst fun c => (task c).endTime
  removeIf task queue filter := queue.keep fun c => !filter (task c)
  contains queue container := queue.planned.any fun planned => planned.item = container
  reinsert before _ queue filter :=
    queue.again (fun c => (before c).endTime) fun c => filter (before c)

/-! ### What is done to the queued tasks -/

/-- The operation takes such a task out of the queue. -/
def QueueOp.cancels (task : Task) : QueueOp → Bool
  | .cancelAll => true
  | .cancelGroup group => task.isInGroup group
  | .cancelGroupsOf groups => groups.any task.isInGroup
  | _ => false

/-- What the operation makes of a queued task. -/
def QueueOp.change (now : Nat) (task : Task) : QueueOp → Task
  | .delayAll duration => delayed duration task
  | .delayGroup group duration =>
    if task.isInGroup group then delayed duration task else task
  | .rescheduleAll duration => rescheduled (now + duration) task
  | .rescheduleGroup group duration =>
    if task.isInGroup group then rescheduled (now + duration) task else task
  | _ => task

variable {c x : TaskContainer}

namespace TaskScheduler

variable {scheduler : TaskScheduler TaskMultiset}

theorem mem_removeIf {filter : Task → Bool} :
    c ∈ (scheduler.removeIf filter).taskHolder.container ↔
      c ∈ scheduler.taskHolder.container ∧ filter (scheduler.task c) = false := by
  unfold removeIf
  show c ∈ scheduler.taskHolder.container.filter _ ↔ _
  rw [mem_filter, not_eq_true']

/-- What `ModifyIf` does to the queue is to move items within it. -/
theorem perm_modifyIf (filter : Task → Bool) (change : Task → Task) :
    (scheduler.modifyIf filter change).taskHolder.container.Perm
      scheduler.taskHolder.container := by
  refine (perm_insertAllLast _ _ _).trans ?_
  exact filter_append_perm (fun c => filter (scheduler.task c)) scheduler.taskHolder.container

theorem task_modifyIf (filter : Task → Bool) (change : Task → Task) (c : TaskContainer) :
    (scheduler.modifyIf filter change).task c =
      if c ∈ scheduler.taskHolder.container ∧ filter (scheduler.task c) = true
        then change (scheduler.task c) else scheduler.task c := by
  show (if scheduler.taskHolder.container.contains c && filter (scheduler.task c)
    then change (scheduler.task c) else scheduler.task c) = _
  simp only [and_eq_true, contains_iff_mem]

/-- What `CancelGroupsOf` does, group after group. -/
theorem foldl_removeIf (groups : List UInt32) :
    groups.foldl (fun scheduler group => scheduler.removeIf (·.isInGroup group)) scheduler =
      scheduler.removeIf fun task => groups.any task.isInGroup := by
  induction groups generalizing scheduler with
  | nil =>
    unfold removeIf
    show scheduler = { scheduler with taskHolder := { container := _ } }
    have hall : (scheduler.taskHolder.container.filter fun _ => !false) =
        scheduler.taskHolder.container := filter_true _
    rw [show (scheduler.taskHolder.container.filter fun c =>
      !([] : List UInt32).any (scheduler.task c).isInGroup) =
        scheduler.taskHolder.container from hall]
  | cons group groups ih =>
    rw [foldl_cons, ih]
    unfold removeIf
    show ({ scheduler with taskHolder := { container :=
      (scheduler.taskHolder.container.filter _).filter _ } } : TaskScheduler TaskMultiset) =
        { scheduler with taskHolder := { container := scheduler.taskHolder.container.filter _ } }
    rw [filter_filter]
    congr 2
    apply filter_congr
    intro c _
    dsimp only
    rw [any_cons, Bool.not_or, Bool.and_comm]

/-- An operation takes out the tasks that it cancels, and no others. -/
theorem mem_queueOp {op : QueueOp} :
    c ∈ (scheduler.queueOp op).taskHolder.container ↔
      c ∈ scheduler.taskHolder.container ∧ op.cancels (scheduler.task c) = false := by
  cases op with
  | cancelAll =>
    show c ∈ [] ↔ _ ∧ true = false
    simp
  | cancelGroup group => exact mem_removeIf
  | cancelGroupsOf groups =>
    show c ∈ (groups.foldl _ scheduler).taskHolder.container ↔ _
    rw [foldl_removeIf]
    exact mem_removeIf
  | delayAll duration => exact (perm_modifyIf _ _).mem_iff.trans (by simp [QueueOp.cancels])
  | delayGroup group duration =>
    exact (perm_modifyIf _ _).mem_iff.trans (by simp [QueueOp.cancels])
  | rescheduleAll duration => exact (perm_modifyIf _ _).mem_iff.trans (by simp [QueueOp.cancels])
  | rescheduleGroup group duration =>
    exact (perm_modifyIf _ _).mem_iff.trans (by simp [QueueOp.cancels])

/-- An operation changes the queued tasks as it says, and no others. -/
theorem task_queueOp (op : QueueOp) (c : TaskContainer) :
    (scheduler.queueOp op).task c =
      if c ∈ scheduler.taskHolder.container then op.change scheduler.now (scheduler.task c)
        else scheduler.task c := by
  have hsame : scheduler.task c =
      if c ∈ scheduler.taskHolder.container then scheduler.task c else scheduler.task c :=
    (ite_self _).symm
  cases op with
  | cancelAll => exact hsame
  | cancelGroup group => exact hsame
  | cancelGroupsOf groups =>
    show (groups.foldl _ scheduler).task c = _
    rw [foldl_removeIf]
    exact hsame
  | delayAll duration =>
    unfold queueOp QueueOp.change
    dsimp only
    rw [task_modifyIf]
    simp only [ite_and, if_true]
  | delayGroup group duration =>
    unfold queueOp QueueOp.change
    dsimp only
    rw [task_modifyIf]
    simp only [ite_and]
  | rescheduleAll duration =>
    unfold queueOp QueueOp.change
    dsimp only
    rw [task_modifyIf]
    simp only [ite_and, if_true]
  | rescheduleGroup group duration =>
    unfold queueOp QueueOp.change
    dsimp only
    rw [task_modifyIf]
    simp only [ite_and]

theorem now_queueOp (op : QueueOp) : (scheduler.queueOp op).now = scheduler.now := by
  cases op with
  | cancelGroupsOf groups =>
    show (groups.foldl _ scheduler).now = _
    rw [foldl_removeIf]
    rfl
  | _ => rfl

theorem allocated_queueOp (op : QueueOp) :
    (scheduler.queueOp op).allocated = scheduler.allocated := by
  cases op with
  | cancelGroupsOf groups =>
    show (groups.foldl _ scheduler).allocated = _
    rw [foldl_removeIf]
    rfl
  | _ => rfl

theorem nodup_queueOp (op : QueueOp) (h : scheduler.taskHolder.container.Nodup) :
    (scheduler.queueOp op).taskHolder.container.Nodup := by
  cases op with
  | cancelAll => exact nodup_nil
  | cancelGroup group => exact h.filter _
  | cancelGroupsOf groups =>
    show (groups.foldl _ scheduler).taskHolder.container.Nodup
    rw [foldl_removeIf]
    exact h.filter _
  | delayAll duration => exact (perm_modifyIf _ _).nodup_iff.mpr h
  | delayGroup group duration => exact (perm_modifyIf _ _).nodup_iff.mpr h
  | rescheduleAll duration => exact (perm_modifyIf _ _).nodup_iff.mpr h
  | rescheduleGroup group duration => exact (perm_modifyIf _ _).nodup_iff.mpr h

theorem mem_insertTask :
    c ∈ (scheduler.insertTask x).taskHolder.container ↔
      c = x ∨ c ∈ scheduler.taskHolder.container := mem_insertLast

theorem nodup_insertTask (h : scheduler.taskHolder.container.Nodup)
    (hx : x ∉ scheduler.taskHolder.container) :
    (scheduler.insertTask x).taskHolder.container.Nodup :=
  (perm_insertLast _ _ _).nodup_iff.mpr (nodup_cons.mpr ⟨hx, h⟩)

theorem task_setTask (c x : TaskContainer) (task : Task) :
    (scheduler.setTask x task).task c = if c = x then task else scheduler.task c := rfl

theorem mem_scheduleAt {endTime time : Nat} {group : Option UInt32} {handler : Nat} :
    c ∈ (scheduler.scheduleAt endTime time group handler).taskHolder.container ↔
      c = scheduler.allocated ∨ c ∈ scheduler.taskHolder.container := mem_insertLast

theorem task_scheduleAt (endTime time : Nat) (group : Option UInt32) (handler : Nat)
    (c : TaskContainer) :
    (scheduler.scheduleAt endTime time group handler).task c =
      if c = scheduler.allocated then
        { endTime := endTime + time, duration := time, group := group, handler := handler }
      else scheduler.task c := rfl

/-! ### What a callback may rely on -/

/-- Every pointer is queued once at most, and was allocated. -/
structure Allocated (scheduler : TaskScheduler TaskMultiset) : Prop where
  nodup : scheduler.taskHolder.container.Nodup
  lt : ∀ c ∈ scheduler.taskHolder.container, c < scheduler.allocated

theorem Allocated.queueOp (h : scheduler.Allocated) (op : QueueOp) :
    (scheduler.queueOp op).Allocated where
  nodup := nodup_queueOp op h.nodup
  lt c hc := by
    rw [allocated_queueOp]
    exact h.lt c (mem_queueOp.mp hc).1

theorem Allocated.scheduleAt (h : scheduler.Allocated) (endTime time : Nat)
    (group : Option UInt32) (handler : Nat) :
    (scheduler.scheduleAt endTime time group handler).Allocated where
  nodup := nodup_insertTask h.nodup fun hmem => absurd (h.lt _ hmem) (Nat.lt_irrefl _)
  lt c hc := by
    show c < scheduler.allocated + 1
    cases mem_insertTask.mp hc with
    | inl heq => exact heq ▸ Nat.lt_succ_self _
    | inr hmem => exact Nat.lt_succ_of_lt (h.lt c hmem)

/-- The task of a context was allocated, and is outside of the queue until it is repeated. -/
structure Runs (scheduler : TaskScheduler TaskMultiset) (context : TaskContext) : Prop extends
    scheduler.Allocated where
  task_lt : context.task < scheduler.allocated
  absent : context.consumed = false → context.task ∉ scheduler.taskHolder.container

end TaskScheduler

namespace TaskContext

variable {Q : Type} [TaskQueue Q] {state state' : TaskScheduler Q × TaskContext} {op : ContextOp}

/-- What a call does. -/
theorem call_cases (h : call state op = some state') :
    (∃ queued, op = .queueOp queued ∧ state' = (state.1.queueOp queued, state.2)) ∨
    (∃ time group handler, op = .schedule time group handler ∧ state' =
      (state.1.scheduleAt (state.1.task state.2.task).endTime time group handler, state.2)) ∨
    (∃ duration, op = .repeatTask duration ∧ state.2.consumed = false ∧ state' =
      ((state.1.setTask state.2.task ((state.1.task state.2.task).again duration)).insertTask
        state.2.task, { state.2 with consumed := true })) := by
  cases op with
  | queueOp queued => exact .inl ⟨queued, rfl, (Option.some.inj h).symm⟩
  | schedule time group handler =>
    exact .inr (.inl ⟨time, group, handler, rfl, (Option.some.inj h).symm⟩)
  | repeatTask duration =>
    dsimp only [call] at h
    split at h
    · cases h
    · next hconsumed =>
      have hnew : state.2.consumed = false := eq_false_iff.mpr hconsumed
      exact .inr (.inr ⟨duration, rfl, hnew, (Option.some.inj h).symm⟩)

end TaskContext

namespace TaskScheduler

variable {scheduler : TaskScheduler TaskMultiset}

theorem Runs.call {context : TaskContext} (h : scheduler.Runs context) {op : ContextOp}
    {state : TaskScheduler TaskMultiset × TaskContext}
    (hcall : TaskContext.call (scheduler, context) op = some state) : state.1.Runs state.2 := by
  obtain ⟨queued, rfl, rfl⟩ | ⟨time, group, handler, rfl, rfl⟩ | ⟨duration, rfl, hnew, rfl⟩ :=
    TaskContext.call_cases hcall
  · refine ⟨h.toAllocated.queueOp queued, ?_, fun hconsumed hmem => ?_⟩
    · rw [allocated_queueOp]
      exact h.task_lt
    · exact h.absent hconsumed (mem_queueOp.mp hmem).1
  · refine ⟨h.toAllocated.scheduleAt _ _ _ _, Nat.lt_succ_of_lt h.task_lt, fun hconsumed hmem => ?_⟩
    cases mem_insertTask.mp hmem with
    | inl heq => exact absurd h.task_lt (heq ▸ Nat.lt_irrefl _)
    | inr hmem => exact h.absent hconsumed hmem
  · refine ⟨⟨nodup_insertTask h.nodup (h.absent hnew), fun c hc => ?_⟩, h.task_lt, nofun⟩
    cases mem_insertTask.mp hc with
    | inl heq => exact heq ▸ h.task_lt
    | inr hmem => exact h.lt c hmem

/-! ### The refinement -/

/-- The same scheduler, with the queue in the order of an agenda. -/
structure Refines (scheduler : TaskScheduler TaskMultiset)
    (agenda : TaskScheduler (ItemAgenda TaskContainer)) : Prop where
  now : agenda.now = scheduler.now
  task : agenda.task = scheduler.task
  allocated : agenda.allocated = scheduler.allocated
  queue : ItemAgenda.Refines (fun c => (scheduler.task c).endTime) scheduler.taskHolder.container
    agenda.taskHolder

variable {agenda : TaskScheduler (ItemAgenda TaskContainer)}

section

variable (h : scheduler.Refines agenda)
include h

theorem Refines.contains (c : TaskContainer) :
    TaskQueue.contains agenda.taskHolder c = TaskQueue.contains scheduler.taskHolder c := by
  show (agenda.taskHolder.planned.any fun planned => planned.item = c) =
    scheduler.taskHolder.container.contains c
  rw [Bool.eq_iff_iff, any_eq_true, contains_iff_mem, h.queue.mem]
  simp only [decide_eq_true_eq]

theorem Refines.removeIf (filter : Task → Bool) :
    (scheduler.removeIf filter).Refines (agenda.removeIf filter) where
  now := h.now
  task := h.task
  allocated := h.allocated
  queue := by
    have hkeep := h.queue.keep fun c => !filter (scheduler.task c)
    unfold TaskScheduler.removeIf
    rw [h.task]
    exact hkeep

theorem Refines.modifyIf (filter : Task → Bool)
    (change : Task → Task) :
    (scheduler.modifyIf filter change).Refines (agenda.modifyIf filter change) where
  now := h.now
  task := by
    unfold TaskScheduler.modifyIf
    dsimp only
    rw [h.task]
    ext1 c
    rw [h.contains]
  allocated := h.allocated
  queue := by
    have hdue : ∀ c ∈ scheduler.taskHolder.container, filter (scheduler.task c) = false →
        ((scheduler.modifyIf filter change).task c).endTime = (scheduler.task c).endTime := by
      intro c _ hnot
      rw [task_modifyIf, if_neg fun hboth => false_ne_true (hnot.symm.trans hboth.2)]
    have hagain := h.queue.again (fun c => filter (scheduler.task c)) hdue
    unfold TaskScheduler.modifyIf at hagain ⊢
    rw [h.task]
    exact hagain

theorem Refines.queueOp (op : QueueOp) : (scheduler.queueOp op).Refines (agenda.queueOp op) := by
  cases op with
  | cancelAll => exact ⟨h.now, h.task, h.allocated, ItemAgenda.refines_nil _⟩
  | cancelGroup group => exact h.removeIf _
  | cancelGroupsOf groups =>
    show (groups.foldl _ scheduler).Refines (groups.foldl _ agenda)
    induction groups generalizing scheduler agenda with
    | nil => exact h
    | cons group groups ih => exact ih (h.removeIf _)
  | delayAll duration => exact h.modifyIf (fun _ => true) (delayed duration)
  | delayGroup group duration => exact h.modifyIf (·.isInGroup group) (delayed duration)
  | rescheduleAll duration =>
    unfold TaskScheduler.queueOp
    rw [h.now]
    exact h.modifyIf (fun _ => true) (rescheduled (scheduler.now + duration))
  | rescheduleGroup group duration =>
    unfold TaskScheduler.queueOp
    rw [h.now]
    exact h.modifyIf (·.isInGroup group) (rescheduled (scheduler.now + duration))

theorem Refines.insertTask (c : TaskContainer) :
    (scheduler.insertTask c).Refines (agenda.insertTask c) where
  now := h.now
  task := h.task
  allocated := h.allocated
  queue := h.queue.plan c

/-- The order does not look at tasks outside of the queue. -/
theorem Refines.setTask {c : TaskContainer}
    (hc : c ∉ scheduler.taskHolder.container) (task : Task) :
    (scheduler.setTask c task).Refines (agenda.setTask c task) where
  now := h.now
  task := by
    unfold TaskScheduler.setTask
    rw [h.task]
  allocated := h.allocated
  queue := h.queue.congr fun x hx => by
    rw [task_setTask, if_neg fun heq : x = c => hc (heq ▸ hx)]

theorem Refines.scheduleAt (hlt : scheduler.Allocated)
    (endTime time : Nat) (group : Option UInt32) (handler : Nat) :
    (scheduler.scheduleAt endTime time group handler).Refines
      (agenda.scheduleAt endTime time group handler) := by
  unfold TaskScheduler.scheduleAt
  dsimp only
  rw [h.allocated]
  have hset := h.setTask (fun hmem => absurd (hlt.lt _ hmem) (Nat.lt_irrefl scheduler.allocated))
    { endTime := endTime + time, duration := time, group := group, handler := handler }
  apply Refines.insertTask
  exact ⟨hset.now, hset.task, rfl, hset.queue⟩

theorem Refines.schedule (hlt : scheduler.Allocated) (time : Nat)
    (group : Option UInt32) (handler : Nat) :
    (scheduler.schedule time group handler).Refines (agenda.schedule time group handler) := by
  unfold TaskScheduler.schedule
  rw [h.now]
  exact h.scheduleAt hlt _ _ _ _

end

end TaskScheduler

/-- A callback that has called as much on the scheduler as on the agenda. -/
structure TaskContext.Refines (state : TaskScheduler TaskMultiset × TaskContext)
    (agenda : TaskScheduler (ItemAgenda TaskContainer) × TaskContext) : Prop where
  refines : state.1.Refines agenda.1
  context : agenda.2 = state.2
  runs : state.1.Runs state.2

namespace TaskContext

variable {state : TaskScheduler TaskMultiset × TaskContext}
  {agenda : TaskScheduler (ItemAgenda TaskContainer) × TaskContext}

theorem Refines.call (h : Refines state agenda) (op : ContextOp) :
    Option.Rel Refines (call state op) (call agenda op) := by
  obtain ⟨scheduler, context⟩ := state
  obtain ⟨agenda, context'⟩ := agenda
  obtain ⟨hrefines, rfl, hruns⟩ := h
  cases op with
  | queueOp op =>
    have hcall : call (scheduler, context') (.queueOp op) = some _ := rfl
    exact Option.Rel.some ⟨hrefines.queueOp op, rfl, hruns.call hcall⟩
  | schedule time group handler =>
    have hcall : call (scheduler, context') (.schedule time group handler) = some _ := rfl
    dsimp only [TaskContext.call]
    rw [hrefines.task]
    exact Option.Rel.some ⟨hrefines.scheduleAt hruns.toAllocated _ _ _ _, rfl, hruns.call hcall⟩
  | repeatTask duration =>
    cases hconsumed : context'.consumed with
    | true =>
      dsimp only [TaskContext.call]
      rw [hconsumed, if_pos rfl, if_pos rfl]
      exact Option.Rel.none
    | false =>
      have hcall : call (scheduler, context') (.repeatTask duration) = some _ :=
        if_neg (eq_false_iff.mp hconsumed)
      have hcall' : call (agenda, context') (.repeatTask duration) = some _ :=
        if_neg (eq_false_iff.mp hconsumed)
      rw [hcall, hcall', hrefines.task]
      exact Option.Rel.some ⟨(hrefines.setTask (hruns.absent hconsumed) _).insertTask _, rfl,
        hruns.call hcall⟩

end TaskContext

namespace SchedulerRun

/-- A run on the multiset that has come as far as one on the agenda. -/
structure Refines (run : SchedulerRun TaskMultiset)
    (agenda : SchedulerRun (ItemAgenda TaskContainer)) : Prop where
  scheduler : run.scheduler.Refines agenda.scheduler
  history : agenda.history = run.history
  aborted : agenda.aborted = run.aborted

variable {run run' : SchedulerRun TaskMultiset} {agenda : SchedulerRun (ItemAgenda TaskContainer)}
  {callbacks : TaskCallbacks}

theorem Refines.pop (h : run.Refines agenda) : run.pop.Refines agenda.pop where
  scheduler := {
    now := h.scheduler.now
    task := h.scheduler.task
    allocated := h.scheduler.allocated
    queue := by
      have hremove := h.scheduler.queue.removeFirst
      unfold SchedulerRun.pop
      rw [h.scheduler.task]
      exact hremove }
  history := h.history
  aborted := h.aborted

/-- The task that is popped is outside of the queue. -/
theorem runs_pop (h : run.scheduler.Allocated)
    (hfirst : TaskQueue.first run.scheduler.task run.scheduler.taskHolder = some c) :
    run.pop.scheduler.Runs { task := c } := by
  have hhead : run.scheduler.taskHolder.container.head? = some c := hfirst
  obtain ⟨rest, hrest⟩ := head?_eq_some_iff.mp hhead
  have htail : run.pop.scheduler.taskHolder.container = rest := by
    show run.scheduler.taskHolder.container.tail = rest
    rw [hrest]
    rfl
  have hnodup := hrest ▸ h.nodup
  have hlt := fun x (hx : x ∈ rest) => h.lt x (hrest ▸ mem_cons_of_mem c hx)
  refine ⟨⟨?_, ?_⟩, h.lt c (hrest ▸ mem_cons_self), fun _ => ?_⟩
  · rw [htail]
    exact (nodup_cons.mp hnodup).2
  · rw [htail]
    exact hlt
  · rw [htail]
    exact (nodup_cons.mp hnodup).1

/-- A task that is invoked leaves pointers queued once at most. -/
theorem allocated_invoke (h : run.scheduler.Runs { task := c }) :
    (run.invoke callbacks c).scheduler.Allocated := by
  unfold invoke
  dsimp only
  split
  · exact h.toAllocated
  · next scheduler context hcalls =>
    have hruns : scheduler.Runs context :=
      foldlM_some_invariant
        (fun (state : TaskScheduler TaskMultiset × TaskContext) _ _ _
          (hruns : state.1.Runs state.2) hcall => hruns.call hcall) h hcalls
    exact hruns.toAllocated

theorem Refines.invoke (h : run.Refines agenda)
    (hruns : run.scheduler.Runs { task := c }) :
    (run.invoke callbacks c).Refines (agenda.invoke callbacks c) := by
  unfold SchedulerRun.invoke
  rw [h.history, h.scheduler.task, h.scheduler.now]
  dsimp only
  obtain ⟨history, hhistory⟩ : ∃ history, history = run.history ++
    [({ container := c, task := run.scheduler.task c, now := run.scheduler.now } :
      Invocation)] := ⟨_, rfl⟩
  rw [← hhistory]
  have hcalls := foldlM_simulation (fun _ _ op hrel => TaskContext.Refines.call hrel op)
    (⟨h.scheduler, rfl, hruns⟩ : TaskContext.Refines (run.scheduler, { task := c })
      (agenda.scheduler, { task := c })) (callbacks history)
  generalize (callbacks history).foldlM TaskContext.call (run.scheduler, { task := c }) = calls
    at hcalls ⊢
  generalize (callbacks history).foldlM TaskContext.call (agenda.scheduler, { task := c }) = calls'
    at hcalls ⊢
  cases hcalls with
  | none => exact ⟨h.scheduler, rfl, rfl⟩
  | some hrel => exact ⟨hrel.refines, rfl, h.aborted⟩

theorem Refines.first (h : run.Refines agenda) :
    TaskQueue.first agenda.scheduler.task agenda.scheduler.taskHolder =
      TaskQueue.first run.scheduler.task run.scheduler.taskHolder := by
  rw [h.scheduler.task]
  exact h.scheduler.queue.first

/-- A run on the multiset and one on the agenda, between two events. -/
structure Between (run : SchedulerRun TaskMultiset)
    (agenda : SchedulerRun (ItemAgenda TaskContainer)) : Prop where
  refines : run.Refines agenda
  allocated : run.scheduler.Allocated

theorem Between.dispatch (h : run.Between agenda) (fuel : Nat) :
    Option.Rel Between (dispatch callbacks fuel run) (dispatch callbacks fuel agenda) := by
  induction fuel generalizing run agenda with
  | zero => exact Option.Rel.none
  | succ fuel ih =>
    unfold SchedulerRun.dispatch
    rw [h.refines.aborted, h.refines.first, h.refines.scheduler.task, h.refines.scheduler.now]
    split
    · exact Option.Rel.some h
    · split
      · exact Option.Rel.some h
      · next c hfirst =>
        split
        · exact Option.Rel.some h
        · have hruns := runs_pop h.allocated hfirst
          exact ih ⟨h.refines.pop.invoke hruns, allocated_invoke hruns⟩

theorem Between.wait (h : run.Between agenda) (difftime : Nat) :
    (run.wait difftime).Between (agenda.wait difftime) where
  refines := ⟨⟨congrArg (· + difftime) h.refines.scheduler.now, h.refines.scheduler.task,
    h.refines.scheduler.allocated, h.refines.scheduler.queue⟩, h.refines.history,
    h.refines.aborted⟩
  allocated := ⟨h.allocated.nodup, h.allocated.lt⟩

theorem Between.step (h : run.Between agenda) (fuel : Nat) (event : SchedulerEvent) :
    Option.Rel Between (step callbacks fuel run event) (step callbacks fuel agenda event) := by
  unfold SchedulerRun.step
  rw [h.refines.aborted]
  split
  · exact Option.Rel.some h
  · cases event with
    | queueOp op =>
      exact Option.Rel.some ⟨⟨h.refines.scheduler.queueOp op, h.refines.history, rfl⟩, h.allocated.queueOp op⟩
    | schedule time group handler =>
      exact Option.Rel.some ⟨⟨h.refines.scheduler.schedule h.allocated time group handler,
        h.refines.history, rfl⟩, h.allocated.scheduleAt _ _ _ _⟩
    | update difftime => exact (h.wait difftime).dispatch fuel

theorem between_start (now : Nat) : Between (start now) (start now) where
  refines := ⟨⟨rfl, rfl, rfl, ItemAgenda.refines_nil _⟩, rfl, rfl⟩
  allocated := ⟨nodup_nil, nofun⟩

/-- The run of any events does on the multiset what it does on the agenda. -/
theorem between_runEvents (fuel now : Nat) (events : List SchedulerEvent) :
    Option.Rel Between (runEvents callbacks fuel now events)
      (runEvents callbacks fuel now events) :=
  foldlM_simulation (fun _ _ event hrel => Between.step hrel fuel event)
    (between_start now) events

end SchedulerRun

end TrinityCore.Utilities
