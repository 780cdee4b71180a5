import TrinityCore.Utilities.TaskDispatch

/-!
# Tasks that are repeated

A task that its callback repeats with one duration, and that nothing else moves, is due at
multiples of it from when it was due first. With it the scheduler is what an agenda says.
-/

namespace TrinityCore.Utilities

open List

namespace QueueOp

/-- The operation leaves the due times of a group alone. -/
def leaves (group : Option UInt32) : QueueOp → Bool
  | .delayAll _ => false
  | .delayGroup moved _ => group != some moved
  | .rescheduleAll _ => false
  | .rescheduleGroup moved _ => group != some moved
  | _ => true

variable {now : Nat} {task : Task} {op : QueueOp}

theorem change_of_leaves (h : op.leaves task.group = true) : op.change now task = task := by
  cases op with
  | delayAll duration => cases h
  | delayGroup moved duration =>
    have hne : task.group ≠ some moved := by simpa [leaves] using h
    exact if_neg fun hgroup => hne (eq_of_beq hgroup)
  | rescheduleAll duration => cases h
  | rescheduleGroup moved duration =>
    have hne : task.group ≠ some moved := by simpa [leaves] using h
    exact if_neg fun hgroup => hne (eq_of_beq hgroup)
  | _ => rfl

theorem group_change : (op.change now task).group = task.group := by
  cases op with
  | delayGroup moved duration =>
    dsimp only [change]
    split
    · rfl
    · rfl
  | rescheduleGroup moved duration =>
    dsimp only [change]
    split
    · rfl
    · rfl
  | _ => rfl

end QueueOp

/-- A callback leaves the due times of a group alone, and repeats its own task with one duration
if that is the task `c`. -/
def ContextOp.Repeats (c : TaskContainer) (group : Option UInt32) (duration : Nat)
    (invocation : Invocation) : ContextOp → Prop
  | .queueOp op => op.leaves group = true
  | .schedule _ _ _ => True
  | .repeatTask repeated =>
    invocation.container = c → repeated.getD invocation.task.duration = duration

/-- What was invoked of a task. -/
def invocationsOf (c : TaskContainer) (history : List Invocation) : List Invocation :=
  history.filter fun invocation => invocation.container = c

theorem invocationsOf_concat (c : TaskContainer) (history : List Invocation)
    (invocation : Invocation) :
    invocationsOf c (history ++ [invocation]) =
      invocationsOf c history ++ if invocation.container = c then [invocation] else [] := by
  unfold invocationsOf
  rw [filter_append]
  congr 1
  split
  · next hc => exact filter_cons_of_pos (decide_eq_true hc)
  · next hc => exact filter_cons_of_neg (by simpa using hc)

namespace TaskScheduler

/-- A task was invoked, and is queued, at multiples of a duration from its first due time. -/
structure AtMultiples (c : TaskContainer) (group : Option UInt32) (duration : Nat)
    (invoked : List Invocation) (scheduler : TaskScheduler TaskMultiset) : Prop where
  sameGroup : ∀ invocation ∈ invoked, invocation.task.group = (scheduler.task c).group
  fresh : scheduler.allocated ≤ c → invoked = []
  due : (scheduler.task c).group = group → ∃ first,
    (invoked.map fun invocation => invocation.task.endTime) =
      ((List.range invoked.length).map fun k => first + k * duration) ∧
    (c ∈ scheduler.taskHolder.container →
      (scheduler.task c).endTime = first + invoked.length * duration)

variable {scheduler : TaskScheduler TaskMultiset} {c : TaskContainer} {group : Option UInt32}
  {duration : Nat} {invoked : List Invocation}

section

variable (h : scheduler.AtMultiples c group duration invoked)
include h

theorem AtMultiples.queueOp {op : QueueOp}
    (hop : op.leaves group = true) :
    (scheduler.queueOp op).AtMultiples c group duration invoked := by
  have hgroup : ((scheduler.queueOp op).task c).group = (scheduler.task c).group := by
    rw [task_queueOp]
    split
    · exact QueueOp.group_change
    · rfl
  refine ⟨fun invocation hmem => ?_, fun hle => ?_, fun heq => ?_⟩
  · rw [hgroup]
    exact h.sameGroup invocation hmem
  · rw [allocated_queueOp] at hle
    exact h.fresh hle
  · rw [hgroup] at heq
    obtain ⟨first, hinvoked, hqueued⟩ := h.due heq
    refine ⟨first, hinvoked, fun hmem => ?_⟩
    have hbefore := (mem_queueOp.mp hmem).1
    rw [task_queueOp, if_pos hbefore, QueueOp.change_of_leaves (heq ▸ hop)]
    exact hqueued hbefore

theorem AtMultiples.scheduleAt (endTime time : Nat) (group' : Option UInt32) (handler : Nat) :
    (scheduler.scheduleAt endTime time group' handler).AtMultiples c group duration invoked := by
  by_cases hc : c = scheduler.allocated
  · have hnil := h.fresh (le_of_eq hc.symm)
    rw [hnil]
    refine ⟨nofun, fun _ => rfl, fun _ => ⟨endTime + time, rfl, fun _ => ?_⟩⟩
    rw [task_scheduleAt, if_pos hc]
    simp
  · have htask : (scheduler.scheduleAt endTime time group' handler).task c = scheduler.task c := by
      rw [task_scheduleAt, if_neg hc]
    refine ⟨fun invocation hmem => ?_, fun hle => h.fresh (Nat.le_of_succ_le hle), fun heq => ?_⟩
    · rw [htask]
      exact h.sameGroup invocation hmem
    · rw [htask] at heq ⊢
      obtain ⟨first, hinvoked, hqueued⟩ := h.due heq
      exact ⟨first, hinvoked, fun hmem => hqueued ((mem_scheduleAt.mp hmem).resolve_left hc)⟩

theorem AtMultiples.repeat_other {x : TaskContainer} (hx : c ≠ x) (task : Task) :
    ((scheduler.setTask x task).insertTask x).AtMultiples c group duration invoked := by
  have htask : ((scheduler.setTask x task).insertTask x).task c = scheduler.task c := if_neg hx
  refine ⟨fun invocation hmem => ?_, h.fresh, fun heq => ?_⟩
  · rw [htask]
    exact h.sameGroup invocation hmem
  · rw [htask] at heq ⊢
    obtain ⟨first, hinvoked, hqueued⟩ := h.due heq
    exact ⟨first, hinvoked, fun hmem => hqueued ((mem_insertTask.mp hmem).resolve_left hx)⟩

end

/-- The task that was invoked last is repeated. -/
theorem AtMultiples.repeat_self {before : List Invocation} {invocation : Invocation}
    (h : scheduler.AtMultiples c group duration (before ++ [invocation])) {repeated : Option Nat}
    (hend : (scheduler.task c).endTime = invocation.task.endTime)
    (hduration : repeated.getD (scheduler.task c).duration = duration) :
    ((scheduler.setTask c ((scheduler.task c).again repeated)).insertTask c).AtMultiples c group
      duration (before ++ [invocation]) := by
  have htask : ((scheduler.setTask c ((scheduler.task c).again repeated)).insertTask c).task c =
    (scheduler.task c).again repeated := if_pos rfl
  refine ⟨fun i hmem => ?_, h.fresh, fun heq => ?_⟩
  · rw [htask]
    exact h.sameGroup i hmem
  · rw [htask] at heq ⊢
    obtain ⟨first, hinvoked, -⟩ := h.due heq
    refine ⟨first, hinvoked, fun _ => ?_⟩
    have hlast : invocation.task.endTime = first + before.length * duration := by
      rw [map_append, length_append, length_singleton, range_succ, map_append] at hinvoked
      have htail := (append_inj' hinvoked rfl).2
      exact (cons.inj htail).1
    show (scheduler.task c).endTime + repeated.getD (scheduler.task c).duration = _
    rw [hend, hduration, hlast, length_append, length_singleton, Nat.succ_mul]
    omega

end TaskScheduler

namespace TaskContext

/-- The callback of an invocation, where a task has been invoked that often. -/
structure Repeating (c : TaskContainer) (group : Option UInt32) (duration : Nat)
    (invocation : Invocation) (invoked : List Invocation)
    (state : TaskScheduler TaskMultiset × TaskContext) : Prop where
  runs : state.1.Runs state.2
  container : state.2.task = invocation.container
  atMultiples : state.1.AtMultiples c group duration invoked
  own : invocation.container = c → state.2.consumed = false →
    (∃ before, invoked = before ++ [invocation]) ∧
      (state.1.task c).endTime = invocation.task.endTime ∧
      (state.1.task c).duration = invocation.task.duration

variable {c : TaskContainer} {group : Option UInt32} {duration : Nat} {invocation : Invocation}
  {invoked : List Invocation} {state state' : TaskScheduler TaskMultiset × TaskContext}
  {op : ContextOp}

theorem Repeating.call (h : Repeating c group duration invocation invoked state)
    (hop : op.Repeats c group duration invocation) (hcall : call state op = some state') :
    Repeating c group duration invocation invoked state' := by
  have hruns := h.runs.call hcall
  obtain ⟨queued, rfl, rfl⟩ | ⟨time, group', handler, rfl, rfl⟩ | ⟨repeated, rfl, hnew, rfl⟩ :=
    call_cases hcall
  · refine ⟨hruns, h.container, h.atMultiples.queueOp hop, fun hc hnew => ?_⟩
    have habsent := h.runs.absent hnew
    rw [h.container, hc] at habsent
    dsimp only
    rw [TaskScheduler.task_queueOp, if_neg habsent]
    exact h.own hc hnew
  · refine ⟨hruns, h.container, h.atMultiples.scheduleAt _ _ _ _, fun hc hnew => ?_⟩
    have hlt := h.runs.task_lt
    rw [h.container, hc] at hlt
    dsimp only
    rw [TaskScheduler.task_scheduleAt, if_neg (Nat.ne_of_lt hlt)]
    exact h.own hc hnew
  · refine ⟨hruns, h.container, ?_, nofun⟩
    dsimp only
    by_cases hc : invocation.container = c
    · obtain ⟨⟨before, rfl⟩, hend, hduration⟩ := h.own hc hnew
      rw [h.container, hc]
      apply h.atMultiples.repeat_self hend
      rw [hduration]
      exact hop hc
    · apply h.atMultiples.repeat_other
      rw [h.container]
      exact Ne.symm hc

end TaskContext

/-- In all that was invoked, callbacks leave the due times of a group alone, and repeat the task
`c` with one duration. -/
def TaskCallbacks.Repeat (callbacks : TaskCallbacks) (c : TaskContainer) (group : Option UInt32)
    (duration : Nat) (history : List Invocation) : Prop :=
  ∀ before invocation, before ++ [invocation] <+: history →
    ∀ op ∈ callbacks (before ++ [invocation]), op.Repeats c group duration invocation

namespace SchedulerRun

variable {callbacks : TaskCallbacks} {run : SchedulerRun TaskMultiset} {c : TaskContainer}
  {group : Option UInt32} {duration : Nat}

/-- A task is at multiples of its duration, if its callbacks have done nothing against it. -/
structure Repeating (callbacks : TaskCallbacks) (c : TaskContainer) (group : Option UInt32)
    (duration : Nat) (run : SchedulerRun TaskMultiset) : Prop where
  allocated : run.scheduler.Allocated
  atMultiples : callbacks.Repeat c group duration run.history →
    run.scheduler.AtMultiples c group duration (invocationsOf c run.history)

/-- A task that is popped to be invoked. -/
theorem atMultiples_pop (now : Nat) {x : TaskContainer} {history : List Invocation}
    (h : run.scheduler.AtMultiples c group duration (invocationsOf c history))
    (hfirst : TaskQueue.first run.scheduler.task run.scheduler.taskHolder = some x)
    (hruns : run.pop.scheduler.Runs { task := x }) :
    run.pop.scheduler.AtMultiples c group duration (invocationsOf c (history ++
      [{ container := x, task := run.scheduler.task x, now := now }])) := by
  rw [invocationsOf_concat]
  by_cases hx : x = c
  · subst hx
    rw [if_pos rfl]
    refine ⟨fun i hi => ?_, fun hle => absurd hruns.task_lt (Nat.not_lt.mpr hle), fun heq => ?_⟩
    · cases mem_append.mp hi with
      | inl hbefore => exact h.sameGroup i hbefore
      | inr hnew =>
        rw [mem_singleton.mp hnew]
        rfl
    · obtain ⟨first, hinvoked, hqueued⟩ := h.due heq
      refine ⟨first, ?_, fun hmem => absurd hmem (hruns.absent rfl)⟩
      rw [map_append, hinvoked, length_append, length_singleton, range_succ,
        map_append, map_singleton, map_singleton,
        hqueued (mem_of_head? hfirst)]
  · rw [if_neg hx, append_nil]
    refine ⟨h.sameGroup, h.fresh, fun heq => ?_⟩
    obtain ⟨first, hinvoked, hqueued⟩ := h.due heq
    exact ⟨first, hinvoked, fun hmem => hqueued (mem_of_mem_pop hmem)⟩

theorem Repeating.invoke {x : TaskContainer} (h : run.Repeating callbacks c group duration)
    (hfirst : TaskQueue.first run.scheduler.task run.scheduler.taskHolder = some x) :
    (run.pop.invoke callbacks x).Repeating callbacks c group duration := by
  have hruns := runs_pop h.allocated hfirst
  refine ⟨allocated_invoke hruns, fun hrepeat => ?_⟩
  rw [history_invoke] at hrepeat ⊢
  have hbefore := h.atMultiples fun before invocation hpart =>
    hrepeat before invocation (hpart.trans (prefix_append _ _))
  have hpop := atMultiples_pop run.pop.scheduler.now hbefore hfirst hruns
  have hops := hrepeat _ _ (prefix_refl _)
  unfold SchedulerRun.invoke
  dsimp only
  split
  · exact hpop
  · next scheduler context hcalls =>
    have hcalled : TaskContext.Repeating c group duration
        { container := x, task := run.scheduler.task x, now := run.scheduler.now }
        (invocationsOf c (run.history ++
          [{ container := x, task := run.scheduler.task x, now := run.scheduler.now }]))
        (scheduler, context) := by
      apply StateMachine.foldlM_some_invariant _ _ hcalls
      · exact fun state op state' hop hrepeating hcall => hrepeating.call (hops op hop) hcall
      · refine ⟨hruns, rfl, hpop, fun hc _ => ⟨⟨invocationsOf c run.history, ?_⟩, ?_⟩⟩
        · rw [invocationsOf_concat, if_pos hc]
        · exact hc ▸ ⟨rfl, rfl⟩
    exact hcalled.atMultiples

/-- In every run a task stays at multiples of its duration, whatever the updates are. -/
theorem repeating_runEvents {fuel now : Nat} {events : List SchedulerEvent}
    (hevents : ∀ op, .queueOp op ∈ events → op.leaves group = true)
    (h : runEvents callbacks fuel now events = some run) :
    run.Repeating callbacks c group duration := by
  apply StateMachine.foldlM_some_invariant _ _ h
  · intro run event run' hevent hinv hstep
    refine step_invariant (fun run op heq hinv => ?_) (fun run time group' handler hinv => ?_)
      (fun run difftime hinv => ?_) (fun _ _ hinv hfirst _ => Repeating.invoke hinv hfirst) hinv hstep
    · exact ⟨hinv.allocated.queueOp op,
        fun hrepeat => (hinv.atMultiples hrepeat).queueOp (hevents op (heq ▸ hevent))⟩
    · exact ⟨hinv.allocated.scheduleAt _ _ _ _,
        fun hrepeat => (hinv.atMultiples hrepeat).scheduleAt _ _ _ _⟩
    · refine ⟨⟨hinv.allocated.nodup, hinv.allocated.lt⟩, fun hrepeat => ?_⟩
      have hbefore := hinv.atMultiples hrepeat
      exact ⟨hbefore.sameGroup, hbefore.fresh, hbefore.due⟩
  · exact ⟨⟨nodup_nil, nofun⟩, fun _ => ⟨nofun, fun _ => rfl, fun _ => ⟨0, rfl, nofun⟩⟩⟩

/-! ### The refinement of an agenda -/

/-- What the events of a run have come to, on the multiset and on the agenda. -/
structure Outcome (callbacks : TaskCallbacks) (events : List SchedulerEvent)
    (run : SchedulerRun TaskMultiset) (agenda : SchedulerRun (ItemAgenda TaskContainer)) : Prop where
  refines : run.Refines agenda
  inTime : run.InTime
  noneDue : ∀ before difftime, events = before ++ [.update difftime] → run.aborted = false →
    ∀ c ∈ run.scheduler.taskHolder.container, run.scheduler.now < (run.scheduler.task c).endTime
  multiples : ∀ c first rest duration, invocationsOf c run.history = first :: rest →
    (∀ op, .queueOp op ∈ events → op.leaves first.task.group = true) →
    callbacks.Repeat c first.task.group duration run.history →
      (∀ k invocation, (first :: rest)[k]? = some invocation →
        invocation.task.endTime = first.task.endTime + k * duration) ∧
      (c ∈ run.scheduler.taskHolder.container → (run.scheduler.task c).endTime =
        first.task.endTime + (first :: rest).length * duration)

theorem multiples_runEvents {fuel now : Nat} {events : List SchedulerEvent}
    (h : runEvents callbacks fuel now events = some run) {first : Invocation}
    {rest : List Invocation} (hfirst : invocationsOf c run.history = first :: rest)
    (hevents : ∀ op, .queueOp op ∈ events → op.leaves first.task.group = true)
    (hrepeat : callbacks.Repeat c first.task.group duration run.history) :
    (∀ k invocation, (first :: rest)[k]? = some invocation →
        invocation.task.endTime = first.task.endTime + k * duration) ∧
      (c ∈ run.scheduler.taskHolder.container → (run.scheduler.task c).endTime =
        first.task.endTime + (first :: rest).length * duration) := by
  have hat := (repeating_runEvents (c := c) hevents h).atMultiples hrepeat
  rw [hfirst] at hat
  obtain ⟨due, hdue, hqueued⟩ := hat.due (hat.sameGroup first mem_cons_self).symm
  have hk : ∀ k invocation, (first :: rest)[k]? = some invocation →
      invocation.task.endTime = due + k * duration := by
    intro k invocation hinvocation
    have hlt : k < (first :: rest).length := (List.getElem?_eq_some_iff.mp hinvocation).1
    have hget := congrArg (fun ends => ends[k]?) hdue
    rw [getElem?_map, hinvocation, getElem?_map, getElem?_range hlt] at hget
    exact Option.some.inj hget
  have hzero : first.task.endTime = due := by simpa using hk 0 first rfl
  rw [hzero]
  exact ⟨hk, hqueued⟩

/-- The scheduler is an agenda in the order of (due, insertion): updates come to an end, invoke
what is due in that order, and a task that is repeated stays at multiples of its duration;
operations are on the tasks of their group. -/
theorem refines_agenda (callbacks : TaskCallbacks) (hpositive : callbacks.Positive) (now : Nat)
    (events : List SchedulerEvent) :
    (∃ (fuel : Nat) (run : SchedulerRun TaskMultiset)
      (agenda : SchedulerRun (ItemAgenda TaskContainer)),
      (∀ more, fuel ≤ more → runEvents callbacks more now events = some run ∧
        runEvents callbacks more now events = some agenda) ∧
      Outcome callbacks events run agenda) ∧
    ∀ (scheduler : TaskScheduler TaskMultiset) (op : QueueOp) (c : TaskContainer),
      (c ∈ (scheduler.queueOp op).taskHolder.container ↔
        c ∈ scheduler.taskHolder.container ∧ op.cancels (scheduler.task c) = false) ∧
      (scheduler.queueOp op).task c =
        if c ∈ scheduler.taskHolder.container then op.change scheduler.now (scheduler.task c)
          else scheduler.task c := by
  refine ⟨?_, fun scheduler op c => ⟨TaskScheduler.mem_queueOp, TaskScheduler.task_queueOp op c⟩⟩
  obtain ⟨fuel, run, hrun⟩ := events_terminate hpositive (between_start now) events
  have hrun' : runEvents callbacks fuel now events = some run := hrun
  have hboth : Option.Rel Between (runEvents callbacks fuel now events)
    (runEvents callbacks fuel now events) := between_runEvents fuel now events
  rw [hrun'] at hboth
  cases hagenda : (runEvents callbacks fuel now events :
      Option (SchedulerRun (ItemAgenda TaskContainer))) with
  | none =>
    rw [hagenda] at hboth
    cases hboth
  | some agenda =>
    rw [hagenda] at hboth
    cases hboth with
    | some hbetween =>
      refine ⟨fuel, run, agenda, fun more hmore => ⟨events_mono hrun hmore,
        events_mono hagenda hmore⟩, hbetween.refines, inTime_runEvents hrun', ?_, ?_⟩
      · rintro before difftime rfl hgoes
        exact lt_of_update hrun' hbetween hgoes
      · exact fun c first rest duration hfirst hevents hrepeat =>
          multiples_runEvents hrun' hfirst hevents hrepeat

/-- A task that is repeated every 5 ticks, its due times left behind by the updates. -/
theorem refines_agenda_repeat : ∃ (fuel : Nat) (run : SchedulerRun TaskMultiset)
    (agenda : SchedulerRun (ItemAgenda TaskContainer)),
      (∀ more, fuel ≤ more →
        runEvents (fun _ => [.repeatTask (some 5)]) more 0 [.schedule 3 none 0, .update 12] =
          some run ∧
        runEvents (fun _ => [.repeatTask (some 5)]) more 0 [.schedule 3 none 0, .update 12] =
          some agenda) ∧
      (agenda.history.map fun invocation => invocation.task.endTime) = [3, 8] := by
  have hpositive : TaskCallbacks.Positive fun _ => [.repeatTask (some 5)] := by
    intro history invocation op hop
    rw [mem_singleton.mp hop]
    show 0 < 5
    decide
  obtain ⟨fuel, run, agenda, hruns, houtcome⟩ :=
    (refines_agenda _ hpositive 0 [.schedule 3 none 0, .update 12]).1
  have hthree : ∃ run : SchedulerRun TaskMultiset,
      runEvents (fun _ => [.repeatTask (some 5)]) 3 0 [.schedule 3 none 0, .update 12] = some run ∧
        (run.history.map fun invocation => invocation.task.endTime) = [3, 8] := ⟨_, rfl, rfl⟩
  obtain ⟨run', hrun', hends⟩ := hthree
  have hmax := events_mono hrun' (Nat.le_max_right fuel 3)
  have hsame : run = run' := Option.some.inj ((hruns _ (Nat.le_max_left fuel 3)).1.symm.trans hmax)
  refine ⟨fuel, run, agenda, hruns, ?_⟩
  rw [houtcome.refines.history, hsame]
  exact hends

end SchedulerRun

end TrinityCore.Utilities
