import Mathlib.Data.Finset.Card
import TrinityCore.Utilities.TaskAgenda

/-!
# Updates of the task scheduler

An update comes to an end when callbacks put off what they do by positive durations, and leaves no
task in the queue that is due. A task that is repeated with one duration is due at multiples of it
from when it was due first.
-/

namespace TrinityCore.Utilities

open List Option TaskScheduler

/-- A callback of the task puts off what it does by a positive duration. -/
def ContextOp.Positive (task : Task) : ContextOp → Prop
  | .queueOp (.rescheduleAll duration) => 0 < duration
  | .queueOp (.rescheduleGroup _ duration) => 0 < duration
  | .queueOp _ => True
  | .schedule time _ _ => 0 < time
  | .repeatTask duration => 0 < duration.getD task.duration

/-- All callbacks put off what they do by positive durations. -/
def TaskCallbacks.Positive (callbacks : TaskCallbacks) : Prop :=
  ∀ history invocation, ∀ op ∈ callbacks (history ++ [invocation]), op.Positive invocation.task

/-! ### What an operation makes of due times -/

namespace QueueOp

variable {now endTime : Nat} {task invoked : Task} {op : QueueOp}

theorem le_change (hnow : endTime ≤ now) (htask : endTime ≤ task.endTime) :
    endTime ≤ (op.change now task).endTime := by
  cases op with
  | delayAll duration => exact Nat.le_add_right_of_le htask
  | delayGroup group duration =>
    dsimp only [QueueOp.change]
    split
    · exact Nat.le_add_right_of_le htask
    · exact htask
  | rescheduleAll duration => exact Nat.le_add_right_of_le hnow
  | rescheduleGroup group duration =>
    dsimp only [QueueOp.change]
    split
    · exact Nat.le_add_right_of_le hnow
    · exact htask
  | _ => exact htask

/-- No task comes to be due as early as the ones that are due first. -/
theorem endTime_of_change (hpositive : (ContextOp.queueOp op).Positive invoked)
    (hnow : endTime ≤ now) (htask : endTime ≤ task.endTime)
    (h : (op.change now task).endTime = endTime) : task.endTime = endTime := by
  cases op with
  | delayAll duration =>
    have hsum : task.endTime + duration = endTime := h
    omega
  | delayGroup group duration =>
    dsimp only [QueueOp.change] at h
    split at h
    · have hsum : task.endTime + duration = endTime := h
      omega
    · exact h
  | rescheduleAll duration =>
    have hsum : now + duration = endTime := h
    have hduration : 0 < duration := hpositive
    omega
  | rescheduleGroup group duration =>
    dsimp only [QueueOp.change] at h
    split at h
    · have hsum : now + duration = endTime := h
      have hduration : 0 < duration := hpositive
      omega
    · exact h
  | _ => exact h

end QueueOp

/-! ### Termination -/

namespace TaskScheduler

/-- The queued tasks that are due at some time. -/
def dueAt (scheduler : TaskScheduler TaskMultiset) (endTime : Nat) : Finset TaskContainer :=
  scheduler.taskHolder.container.toFinset.filter fun c => (scheduler.task c).endTime = endTime

variable {scheduler : TaskScheduler TaskMultiset} {endTime : Nat}

theorem mem_dueAt {c : TaskContainer} : c ∈ scheduler.dueAt endTime ↔
    c ∈ scheduler.taskHolder.container ∧ (scheduler.task c).endTime = endTime := by
  unfold dueAt
  rw [Finset.mem_filter, List.mem_toFinset]

/-- No queued task is due before some time. -/
def DueFrom (scheduler : TaskScheduler TaskMultiset) (endTime : Nat) : Prop :=
  ∀ c ∈ scheduler.taskHolder.container, endTime ≤ (scheduler.task c).endTime

end TaskScheduler

namespace TaskContext

/-- A callback of a task that was due at `endTime`, where nothing else was due before, and only
`pending` was due then too. -/
structure PutsOff (now endTime duration : Nat) (pending : Finset TaskContainer)
    (state : TaskScheduler TaskMultiset × TaskContext) : Prop where
  runs : state.1.Runs state.2
  now : state.1.now = now
  dueFrom : state.1.DueFrom endTime
  dueAt : state.1.dueAt endTime ⊆ pending
  own : endTime ≤ (state.1.task state.2.task).endTime
  duration : state.2.consumed = false → (state.1.task state.2.task).duration = duration

variable {now endTime duration : Nat} {pending : Finset TaskContainer} {task : Task}
  {state state' : TaskScheduler TaskMultiset × TaskContext} {op : ContextOp}

section

variable (h : PutsOff now endTime duration pending state)
include h

theorem PutsOff.queueOp (hnow : endTime ≤ now)
    {queued : QueueOp} (hpositive : (ContextOp.queueOp queued).Positive task) :
    PutsOff now endTime duration pending (state.1.queueOp queued, state.2) where
  runs := h.runs.call (show call state (.queueOp queued) = some _ from rfl)
  now := (now_queueOp queued).trans h.now
  dueFrom c hc := by
    have hbefore := (mem_queueOp.mp hc).1
    dsimp only
    rw [task_queueOp, if_pos hbefore, h.now]
    exact QueueOp.le_change hnow (h.dueFrom c hbefore)
  dueAt c hc := by
    obtain ⟨hafter, hend⟩ := mem_dueAt.mp hc
    have hbefore := (mem_queueOp.mp hafter).1
    dsimp only at hend
    rw [task_queueOp, if_pos hbefore, h.now] at hend
    apply h.dueAt
    exact mem_dueAt.mpr ⟨hbefore,
      QueueOp.endTime_of_change hpositive hnow (h.dueFrom c hbefore) hend⟩
  own := by
    dsimp only
    rw [task_queueOp]
    split
    · rw [h.now]
      exact QueueOp.le_change hnow h.own
    · exact h.own
  duration hnew := by
    dsimp only
    rw [task_queueOp, if_neg (h.runs.absent hnew)]
    exact h.duration hnew

theorem PutsOff.schedule {time : Nat}
    (hpositive : 0 < time) (group : Option UInt32) (handler : Nat) :
    PutsOff now endTime duration pending
      (state.1.scheduleAt (state.1.task state.2.task).endTime time group handler, state.2) where
  runs := h.runs.call (show call state (.schedule time group handler) = some _ from rfl)
  now := h.now
  dueFrom c hc := by
    dsimp only
    rw [task_scheduleAt]
    split
    · exact Nat.le_add_right_of_le h.own
    · next hold => exact h.dueFrom c ((mem_scheduleAt.mp hc).resolve_left hold)
  dueAt c hc := by
    obtain ⟨hafter, hend⟩ := mem_dueAt.mp hc
    dsimp only at hend
    rw [task_scheduleAt] at hend
    split at hend
    · have hown := h.own
      dsimp only at hend
      omega
    · next hold =>
      apply h.dueAt
      exact mem_dueAt.mpr
        ⟨(mem_scheduleAt.mp hafter).resolve_left hold, hend⟩
  own := by
    dsimp only
    rw [task_scheduleAt, if_neg (Nat.ne_of_lt h.runs.task_lt)]
    exact h.own
  duration hnew := by
    dsimp only
    rw [task_scheduleAt, if_neg (Nat.ne_of_lt h.runs.task_lt)]
    exact h.duration hnew

theorem PutsOff.repeatTask (hnew : state.2.consumed = false) {repeated : Option Nat}
    (hpositive : 0 < repeated.getD duration) :
    PutsOff now endTime duration pending
      ((state.1.setTask state.2.task ((state.1.task state.2.task).again repeated)).insertTask
        state.2.task, { state.2 with consumed := true }) where
  runs := h.runs.call
    (show call state (.repeatTask repeated) = some _ from if_neg (Bool.eq_false_iff.mp hnew))
  now := h.now
  dueFrom c hc := by
    show endTime ≤ ((state.1.setTask _ _).task c).endTime
    rw [task_setTask]
    split
    · exact Nat.le_add_right_of_le h.own
    · next hother => exact h.dueFrom c ((mem_insertTask.mp hc).resolve_left hother)
  dueAt c hc := by
    obtain ⟨hafter, hend⟩ := mem_dueAt.mp hc
    have hend' : ((state.1.setTask _ _).task c).endTime = endTime := hend
    rw [task_setTask] at hend'
    split at hend'
    · have hown := h.own
      have hsum : (state.1.task state.2.task).endTime +
        repeated.getD (state.1.task state.2.task).duration = endTime := hend'
      rw [h.duration hnew] at hsum
      omega
    · next hother =>
      apply h.dueAt
      exact mem_dueAt.mpr
        ⟨(mem_insertTask.mp hafter).resolve_left hother, hend'⟩
  own := by
    show endTime ≤ ((state.1.setTask state.2.task _).task state.2.task).endTime
    rw [task_setTask, if_pos rfl]
    exact Nat.le_add_right_of_le h.own
  duration := nofun

/-- A callback that puts off what it does adds nothing to what is due first. -/
theorem PutsOff.call (hnow : endTime ≤ now)
    (hduration : task.duration = duration) (hpositive : op.Positive task)
    (hcall : call state op = some state') : PutsOff now endTime duration pending state' := by
  obtain ⟨queued, rfl, rfl⟩ | ⟨time, group, handler, rfl, rfl⟩ | ⟨repeated, rfl, hnew, rfl⟩ :=
    call_cases hcall
  · exact h.queueOp hnow hpositive
  · exact h.schedule hpositive group handler
  · apply h.repeatTask hnew
    rw [← hduration]
    exact hpositive

end

end TaskContext

namespace SchedulerRun

/-! ### Rounds -/

section

variable {Q : Type} [TaskQueue Q] {callbacks : TaskCallbacks} {run : SchedulerRun Q}
  {c : TaskContainer}

/-- There is nothing for the loop to do. -/
def Idle (run : SchedulerRun Q) : Prop :=
  run.aborted = true ∨ ∀ c,
    TaskQueue.first run.scheduler.task run.scheduler.taskHolder = some c →
      run.scheduler.now < (run.scheduler.task c).endTime

theorem dispatch_idle (h : run.Idle) (fuel : Nat) :
    dispatch callbacks (fuel + 1) run = some run := by
  unfold dispatch
  split
  · rfl
  · next hgoes =>
    have hnone := h.resolve_left hgoes
    split
    · rfl
    · next c hfirst => rw [if_pos (hnone c hfirst)]

/-- The loop has invoked one task, and goes on. -/
theorem dispatch_first {fuel : Nat} (hgoes : run.aborted = false)
    (hfirst : TaskQueue.first run.scheduler.task run.scheduler.taskHolder = some c)
    (hdue : (run.scheduler.task c).endTime ≤ run.scheduler.now) :
    dispatch callbacks (fuel + 1) run = dispatch callbacks fuel (run.pop.invoke callbacks c) := by
  rw [dispatch, hgoes, if_neg Bool.false_ne_true, hfirst]
  dsimp only
  rw [if_neg (Nat.not_lt.mpr hdue)]

theorem idle_or_first (run : SchedulerRun Q) : run.Idle ∨ run.aborted = false ∧ ∃ c,
    TaskQueue.first run.scheduler.task run.scheduler.taskHolder = some c ∧
      (run.scheduler.task c).endTime ≤ run.scheduler.now := by
  cases haborted : run.aborted with
  | true => exact .inl (.inl haborted)
  | false =>
    by_cases hnone : ∀ c, TaskQueue.first run.scheduler.task run.scheduler.taskHolder = some c →
        run.scheduler.now < (run.scheduler.task c).endTime
    · exact .inl (.inr hnone)
    · push Not at hnone
      exact .inr ⟨rfl, hnone⟩

/-- What the loop does in rounds that it was given. -/
theorem dispatch_cases {fuel : Nat} {run' : SchedulerRun Q}
    (h : dispatch callbacks (fuel + 1) run = some run') : run.Idle ∧ run' = run ∨
      run.aborted = false ∧ ∃ c,
        TaskQueue.first run.scheduler.task run.scheduler.taskHolder = some c ∧
        (run.scheduler.task c).endTime ≤ run.scheduler.now ∧
        dispatch callbacks fuel (run.pop.invoke callbacks c) = some run' := by
  cases run.idle_or_first with
  | inl hidle =>
    rw [dispatch_idle hidle] at h
    exact .inl ⟨hidle, (some.inj h).symm⟩
  | inr hfirst =>
    obtain ⟨hgoes, c, hfirst, hdue⟩ := hfirst
    rw [dispatch_first hgoes hfirst hdue] at h
    exact .inr ⟨hgoes, c, hfirst, hdue, h⟩

theorem dispatch_mono {fuel more : Nat} {run' : SchedulerRun Q}
    (h : dispatch callbacks fuel run = some run') (hmore : fuel ≤ more) :
    dispatch callbacks more run = some run' := by
  induction fuel generalizing run more with
  | zero => cases h
  | succ fuel ih =>
    obtain ⟨more, rfl⟩ := Nat.exists_eq_add_one_of_ne_zero (n := more) (by omega)
    obtain ⟨hidle, rfl⟩ | ⟨hgoes, c, hfirst, hdue, hrest⟩ := dispatch_cases h
    · exact dispatch_idle hidle more
    · rw [dispatch_first hgoes hfirst hdue]
      exact ih hrest (Nat.le_of_succ_le_succ hmore)

theorem step_mono {fuel more : Nat} {run' : SchedulerRun Q} {event : SchedulerEvent}
    (h : step callbacks fuel run event = some run') (hmore : fuel ≤ more) :
    step callbacks more run event = some run' := by
  unfold step at h ⊢
  split
  · next haborted =>
    rw [if_pos haborted] at h
    exact h
  · next hgoes =>
    rw [if_neg hgoes] at h
    cases event with
    | queueOp op => exact h
    | schedule time group handler => exact h
    | update difftime => exact dispatch_mono h hmore

/-- A run that comes to an end does the same with more rounds for each update. -/
theorem events_mono {fuel more : Nat} {run' : SchedulerRun Q} {events : List SchedulerEvent}
    (h : events.foldlM (step callbacks fuel) run = some run') (hmore : fuel ≤ more) :
    events.foldlM (step callbacks more) run = some run' := by
  induction events generalizing run with
  | nil => exact h
  | cons event events ih =>
    rw [foldlM_cons, bind_eq_bind, bind_eq_some_iff] at h ⊢
    obtain ⟨next, hnext, hrest⟩ := h
    exact ⟨next, step_mono hnext hmore, ih hrest⟩

end

/-! ### The loop of an update -/

variable {callbacks : TaskCallbacks} {run : SchedulerRun TaskMultiset}
  {agenda : SchedulerRun (ItemAgenda TaskContainer)} {endTime : Nat} {c : TaskContainer}

/-- What an invocation leaves is due no earlier, and less of it at once. -/
theorem putsOff_invoke (hpositive : callbacks.Positive)
    (hruns : run.scheduler.Runs { task := c }) (hnow : endTime ≤ run.scheduler.now)
    (hdue : run.scheduler.DueFrom endTime) (hc : endTime ≤ (run.scheduler.task c).endTime) :
    (run.invoke callbacks c).scheduler.now = run.scheduler.now ∧
      (run.invoke callbacks c).scheduler.DueFrom endTime ∧
      (run.invoke callbacks c).scheduler.dueAt endTime ⊆ run.scheduler.dueAt endTime := by
  unfold invoke
  dsimp only
  split
  · exact ⟨rfl, hdue, Finset.Subset.refl _⟩
  · next scheduler context hcalls =>
    have hputs : TaskContext.PutsOff run.scheduler.now endTime (run.scheduler.task c).duration
        (run.scheduler.dueAt endTime) (scheduler, context) := by
      apply StateMachine.foldlM_some_invariant _ _ hcalls
      · intro state op state' hop hputs hcall
        exact hputs.call hnow rfl (hpositive _ _ op hop) hcall
      · exact ⟨hruns, rfl, hdue, Finset.Subset.refl _, hc, fun _ => rfl⟩
    exact ⟨hputs.now, hputs.dueFrom, hputs.dueAt⟩

/-- The task at the head of the queue is due first. -/
theorem Refines.first_le (h : run.Refines agenda)
    (hfirst : TaskQueue.first run.scheduler.task run.scheduler.taskHolder = some c)
    {x : TaskContainer} (hx : x ∈ run.scheduler.taskHolder.container) :
    (run.scheduler.task c).endTime ≤ (run.scheduler.task x).endTime := by
  have hhead : run.scheduler.taskHolder.container.head? = some c := hfirst
  obtain ⟨rest, hrest⟩ := head?_eq_some_iff.mp hhead
  have horder := h.scheduler.queue.pairwise
  rw [hrest] at horder hx
  cases mem_cons.mp hx with
  | inl heq => rw [heq]
  | inr hmem => exact (pairwise_cons.mp horder).1 x hmem

theorem mem_of_mem_pop {x : TaskContainer} (h : x ∈ run.pop.scheduler.taskHolder.container) :
    x ∈ run.scheduler.taskHolder.container := mem_of_mem_tail h

theorem idle_of_lt (h : ∀ c ∈ run.scheduler.taskHolder.container,
    run.scheduler.now < (run.scheduler.task c).endTime) : run.Idle :=
  Or.inr fun c hfirst => h c (mem_of_head? hfirst)

section

variable (hpositive : callbacks.Positive)
include hpositive

/-- An invocation of a task that is due first leaves less of what is due then. -/
theorem card_dueAt_invoke (hallocated : run.scheduler.Allocated)
    (hfirst : TaskQueue.first run.scheduler.task run.scheduler.taskHolder = some c)
    (hdue : run.scheduler.DueFrom endTime) (hc : (run.scheduler.task c).endTime = endTime)
    (hnow : endTime ≤ run.scheduler.now) :
    ((run.pop.invoke callbacks c).scheduler.dueAt endTime).card <
      (run.scheduler.dueAt endTime).card := by
  have hruns := runs_pop hallocated hfirst
  have hleaves := (putsOff_invoke hpositive hruns hnow (fun x hx => hdue x (mem_of_mem_pop hx))
    (le_of_eq hc.symm)).2.2
  apply Finset.card_lt_card
  refine Finset.ssubset_iff_subset_ne.mpr ⟨fun x hx => ?_, fun heq => ?_⟩
  · obtain ⟨hx, hend⟩ := mem_dueAt.mp (hleaves hx)
    exact mem_dueAt.mpr ⟨mem_of_mem_pop hx, hend⟩
  · have hself : c ∈ run.scheduler.dueAt endTime :=
      mem_dueAt.mpr ⟨mem_of_head? hfirst, hc⟩
    rw [← heq] at hself
    exact hruns.absent rfl (mem_dueAt.mp (hleaves hself)).1

/-- The loop comes to an end. -/
theorem dispatch_terminates (gap : Nat) :
    ∀ (run : SchedulerRun TaskMultiset) (agenda : SchedulerRun (ItemAgenda TaskContainer))
      (endTime : Nat), run.Between agenda → run.scheduler.now + 1 ≤ endTime + gap →
      run.scheduler.DueFrom endTime → ∃ fuel run', dispatch callbacks fuel run = some run' := by
  -- On how far the first due time is from now, and then on how many tasks are due at it.
  induction gap with
  | zero =>
    intro run agenda endTime _ hgap hdue
    have hidle : run.Idle := idle_of_lt fun c hc => lt_of_lt_of_le hgap (hdue c hc)
    exact ⟨1, run, dispatch_idle hidle 0⟩
  | succ gap ihgap =>
    intro run agenda endTime
    induction hcard : (run.scheduler.dueAt endTime).card using Nat.strong_induction_on
      generalizing run agenda with
    | _ card ih =>
      intro hbetween hgap hdue
      by_cases hempty : run.scheduler.dueAt endTime = ∅
      · apply ihgap run agenda (endTime + 1) hbetween (by omega)
        intro c hc
        have hne : (run.scheduler.task c).endTime ≠ endTime := by
          intro heq
          have hmem := mem_dueAt.mpr ⟨hc, heq⟩
          rw [hempty] at hmem
          exact absurd hmem (Finset.notMem_empty c)
        have hle := hdue c hc
        omega
      · obtain ⟨x, hx⟩ := Finset.nonempty_iff_ne_empty.mpr hempty
        obtain ⟨hmem, hend⟩ := mem_dueAt.mp hx
        cases run.idle_or_first with
        | inl hidle => exact ⟨1, run, dispatch_idle hidle 0⟩
        | inr hfirst =>
          obtain ⟨hgoes, c, hfirst, hnow⟩ := hfirst
          have hc : (run.scheduler.task c).endTime = endTime :=
            le_antisymm (hend ▸ hbetween.refines.first_le hfirst hmem)
              (hdue c (mem_of_head? hfirst))
          have hruns := runs_pop hbetween.allocated hfirst
          have hinvoke := putsOff_invoke hpositive hruns (hc ▸ hnow)
            (fun x hx => hdue x (mem_of_mem_pop hx)) (le_of_eq hc.symm)
          have hless := card_dueAt_invoke hpositive hbetween.allocated hfirst hdue hc (hc ▸ hnow)
          have hgap' : (run.pop.invoke callbacks c).scheduler.now + 1 ≤ endTime + (gap + 1) := by
            rw [hinvoke.1]
            exact hgap
          obtain ⟨fuel, run', hrun'⟩ := ih _ (hcard ▸ hless) _ _ rfl
            ⟨hbetween.refines.pop.invoke hruns, allocated_invoke hruns⟩ hgap' hinvoke.2.1
          exact ⟨fuel + 1, run', (dispatch_first hgoes hfirst hnow).trans hrun'⟩

theorem step_terminates (hbetween : run.Between agenda)
    (event : SchedulerEvent) : ∃ fuel run', step callbacks fuel run event = some run' := by
  unfold step
  split
  · exact ⟨0, run, rfl⟩
  · cases event with
    | queueOp op => exact ⟨0, _, rfl⟩
    | schedule time group handler => exact ⟨0, _, rfl⟩
    | update difftime =>
      apply dispatch_terminates hpositive ((run.wait difftime).scheduler.now + 1) _ _ 0
      · exact hbetween.wait difftime
      · omega
      · exact fun _ _ => Nat.zero_le _

/-- Any events come to an end, with enough rounds for each update. -/
theorem events_terminate (hbetween : run.Between agenda)
    (events : List SchedulerEvent) :
    ∃ fuel run', events.foldlM (step callbacks fuel) run = some run' := by
  induction events generalizing run agenda with
  | nil => exact ⟨0, run, rfl⟩
  | cons event events ih =>
    obtain ⟨fuel, next, hnext⟩ := step_terminates hpositive hbetween event
    have hstep : Option.Rel Between (step callbacks fuel run event)
      (step callbacks fuel agenda event) := hbetween.step fuel event
    rw [hnext] at hstep
    generalize step callbacks fuel agenda event = agenda' at hstep
    cases hstep with
    | some hbetween' =>
      obtain ⟨fuel', run', hrun'⟩ := ih hbetween'
      refine ⟨max fuel fuel', run', ?_⟩
      rw [foldlM_cons, step_mono hnext (Nat.le_max_left fuel fuel')]
      exact events_mono hrun' (Nat.le_max_right fuel fuel')

end

/-! ### What holds of every run -/

/-- What every invocation keeps is kept by the loop, which ends with nothing to do. -/
theorem dispatch_invariant {inv : SchedulerRun TaskMultiset → Prop}
    (hround : ∀ (run : SchedulerRun TaskMultiset) c, inv run →
      TaskQueue.first run.scheduler.task run.scheduler.taskHolder = some c →
        (run.scheduler.task c).endTime ≤ run.scheduler.now → inv (run.pop.invoke callbacks c))
    {fuel : Nat} {run' : SchedulerRun TaskMultiset} (hinv : inv run)
    (h : dispatch callbacks fuel run = some run') : inv run' ∧ run'.Idle := by
  induction fuel generalizing run with
  | zero => cases h
  | succ fuel ih =>
    obtain ⟨hidle, rfl⟩ | ⟨_, c, hfirst, hdue, hrest⟩ := dispatch_cases h
    · exact ⟨hinv, hidle⟩
    · exact ih (hround run c hinv hfirst hdue) hrest

/-- What the events of a run keep is kept by the run. -/
theorem step_invariant {inv : SchedulerRun TaskMultiset → Prop} {event : SchedulerEvent}
    (hqueueOp : ∀ (run : SchedulerRun TaskMultiset) op, event = .queueOp op → inv run →
      inv { run with scheduler := run.scheduler.queueOp op })
    (hschedule : ∀ (run : SchedulerRun TaskMultiset) time group handler, inv run →
      inv { run with scheduler := run.scheduler.schedule time group handler })
    (hwait : ∀ (run : SchedulerRun TaskMultiset) difftime, inv run → inv (run.wait difftime))
    (hround : ∀ (run : SchedulerRun TaskMultiset) c, inv run →
      TaskQueue.first run.scheduler.task run.scheduler.taskHolder = some c →
        (run.scheduler.task c).endTime ≤ run.scheduler.now → inv (run.pop.invoke callbacks c))
    {fuel : Nat} {run' : SchedulerRun TaskMultiset} (hinv : inv run)
    (h : step callbacks fuel run event = some run') : inv run' := by
  unfold step at h
  split at h
  · exact some.inj h ▸ hinv
  · cases event with
    | queueOp op => exact some.inj h ▸ hqueueOp run op rfl hinv
    | schedule time group handler => exact some.inj h ▸ hschedule run time group handler hinv
    | update difftime => exact (dispatch_invariant hround (hwait run difftime hinv) h).1

theorem history_invoke (run : SchedulerRun TaskMultiset) (c : TaskContainer) :
    (run.invoke callbacks c).history = run.history ++
      [{ container := c, task := run.scheduler.task c, now := run.scheduler.now }] := by
  unfold invoke
  dsimp only
  split
  · rfl
  · rfl

/-- No task was invoked before it was due. -/
def InTime (run : SchedulerRun TaskMultiset) : Prop :=
  ∀ invocation ∈ run.history, invocation.task.endTime ≤ invocation.now

theorem InTime.invoke (h : run.InTime) (hdue : (run.scheduler.task c).endTime ≤ run.scheduler.now) :
    (run.pop.invoke callbacks c).InTime := by
  intro invocation hmem
  rw [history_invoke] at hmem
  cases mem_append.mp hmem with
  | inl hbefore => exact h invocation hbefore
  | inr hnew =>
    rw [mem_singleton.mp hnew]
    exact hdue

theorem inTime_runEvents {fuel now : Nat} {events : List SchedulerEvent}
    (h : runEvents callbacks fuel now events = some run) : run.InTime := by
  apply StateMachine.foldlM_some_invariant _ _ h
  · intro run event run' _ hinv hstep
    exact step_invariant (fun _ _ _ hinv => hinv) (fun _ _ _ _ hinv => hinv) (fun _ _ hinv => hinv)
      (fun _ _ hinv _ hdue => InTime.invoke hinv hdue) hinv hstep
  · exact nofun

/-- An update leaves no task in the queue that is due. -/
theorem lt_of_update {fuel now difftime : Nat} {before : List SchedulerEvent}
    (h : runEvents callbacks fuel now (before ++ [.update difftime]) = some run)
    (hbetween : run.Between agenda) (hgoes : run.aborted = false) :
    ∀ c ∈ run.scheduler.taskHolder.container,
      run.scheduler.now < (run.scheduler.task c).endTime := by
  have hidle : run.Idle := by
    unfold runEvents at h
    rw [foldlM_append, bind_eq_bind, bind_eq_some_iff] at h
    obtain ⟨run₀, _, hlast⟩ := h
    rw [foldlM_cons, bind_eq_bind, bind_eq_some_iff] at hlast
    obtain ⟨run₁, hstep, hrun₁⟩ := hlast
    cases hrun₁
    unfold step at hstep
    split at hstep
    · next haborted =>
      cases hstep
      exact .inl haborted
    · exact (@dispatch_invariant callbacks _ (fun _ => True) (fun _ _ _ _ _ => trivial) _ _ trivial
        hstep).2
  intro c hc
  have hnone := hidle.resolve_left (Bool.eq_false_iff.mp hgoes)
  cases hfirst : TaskQueue.first run.scheduler.task run.scheduler.taskHolder with
  | none =>
    have hnil := head?_eq_none_iff.mp hfirst
    rw [hnil] at hc
    exact nomatch hc
  | some x => exact lt_of_lt_of_le (hnone x hfirst) (hbetween.refines.first_le hfirst hc)

end SchedulerRun

end TrinityCore.Utilities
