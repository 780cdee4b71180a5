import TrinityCore.Magmaw.TransferLaneShadow

/-!
# Failure for want of progress

A watch beside a transfer-lane task takes the time since its last progress and, apart from it,
how much of that time the task was suspended. The task shifts its own time stamps instead; the
two accounts agree in every run, so a task fails exactly when the watch says so.
-/

namespace TrinityCore.Magmaw.TransferLane

open Bots Encounter UInt64

variable (hypot : Float32 → Float32 → Float32)

/-! ### The watch -/

/-- The actor is at the height of the destination and closer than ever before, by more than the
progress epsilon. -/
def makesProgress (task : Task) (actor : ActorObservation) : Bool :=
  decide ¬ (actor.position.z - task.destination.z).abs > leaseDestinationToleranceZ
    && decide (hypot (actor.position.x - task.destination.x)
        (actor.position.y - task.destination.y) + progressEpsilon < task.bestDistance)

/-- The times of the last observation and of the last progress, and how long the task was
suspended in between. -/
structure Watch where
  observedAtMs : UInt64
  progressAtMs : UInt64
  suspendedMs : Nat
  deriving DecidableEq, Repr

namespace Watch

/-- Time since the last progress without the time suspended. -/
def activeMs (watch : Watch) : Nat :=
  watch.observedAtMs.toNat - watch.progressAtMs.toNat - watch.suspendedMs

/-- A watch started with the task. -/
def started (atMs : UInt64) : Watch := ⟨atMs, atMs, 0⟩

/-- Time passes while a task is in one state. -/
def advance (watch : Watch) (state : PersistentTaskState) (atMs : UInt64) : Watch :=
  { watch with
    observedAtMs := atMs
    suspendedMs :=
      if state = .suspended then watch.suspendedMs + (atMs.toNat - watch.observedAtMs.toNat)
      else watch.suspendedMs }

/-- The interval up to an observation belongs to the state the task was left in. -/
def observe (watch : Watch) (task : Task) (actor : ActorObservation) (atMs : UInt64) : Watch :=
  if actor.positionObserved && makesProgress hypot task actor then started atMs
  else watch.advance task.state atMs

end Watch

/-- An observation of the actor, with the board it is made on. -/
abbrev LaneObservation := ActorObservation × Blackboard

/-- A task with its watch, which stops when the task has ended. -/
def watchStep (watched : Task × Watch) (observation : LaneObservation) : Task × Watch :=
  if isTerminal watched.1.state then watched
  else
    (observe hypot watched.1 observation.1 observation.2,
      watched.2.observe hypot watched.1 observation.1 observation.2.observedAtMs)

/-- The task is observed and no safety movement has precedence. -/
def resumes (task : Task) (observation : LaneObservation) : Bool :=
  observation.1.positionObserved &&
    !isSafetyPreemption (classifyMovementObservation hypot observation.2.observedAtMs
      (movementScope task.id.episode.lifecycle) task.destination observation.1.currentLease)

/-- The actor stands at the destination. -/
def arrives (task : Task) (actor : ActorObservation) : Bool :=
  decide ¬ (actor.position.z - task.destination.z).abs > leaseDestinationToleranceZ
    && decide (hypot (actor.position.x - task.destination.x)
        (actor.position.y - task.destination.y) ≤ arrivalTolerance)

/-! ### What an observation does to the clock of a task -/

/-- The part of a task that its failure depends on. -/
structure Clock where
  state : PersistentTaskState
  lastProgressAtMs : UInt64
  suspendedAtMs : UInt64

/-- The clock of a task. -/
def Task.clock (task : Task) : Clock :=
  ⟨task.state, task.lastProgressAtMs, task.suspendedAtMs⟩

namespace Clock

/-- `Suspend`. -/
def suspend (clock : Clock) (atMs : UInt64) : Clock :=
  { clock with
    state := .suspended
    suspendedAtMs :=
      if clock.state != .suspended || clock.suspendedAtMs == 0 then atMs
      else clock.suspendedAtMs }

/-- `Resume`. -/
def resume (clock : Clock) (atMs : UInt64) : Clock :=
  { state := .running
    lastProgressAtMs :=
      if clock.state == .suspended && clock.suspendedAtMs != 0
          && decide (atMs > clock.suspendedAtMs) then
        clock.lastProgressAtMs + (atMs - clock.suspendedAtMs)
      else clock.lastProgressAtMs
    suspendedAtMs := 0 }

/-- Progress, when there is some. -/
def progress (clock : Clock) (progresses : Bool) (atMs : UInt64) : Clock :=
  if progresses then
    { clock with
      lastProgressAtMs := atMs
      suspendedAtMs := if clock.state == .suspended then atMs else clock.suspendedAtMs }
  else clock

/-- The end of `Observe`. -/
def settle (clock : Clock) (arrived : Bool) (atMs : UInt64) : Clock :=
  if arrived then { clock with state := .succeeded, suspendedAtMs := 0 }
  else if atMs > clock.lastProgressAtMs
      && decide (atMs - clock.lastProgressAtMs ≥ noProgressFailureMs) then
    { clock with state := .failed }
  else clock

end Clock

theorem observeNativeOutcome_clock (task : Task) (actor : ActorObservation) (board : Blackboard) :
    ∃ nativeDisposition receipt atMs revision samples evidence key,
      observeNativeOutcome hypot task actor board =
        { task with
          nativeDisposition := nativeDisposition
          lastNativeReceiptId := receipt
          lastNativeObservedAtMs := atMs
          nativeEvidenceRevision := revision
          nativeOutcomeSamples := samples
          projectedEndpointEvidenceSamples := evidence
          lastNativeCandidateKey := key } := by
  unfold observeNativeOutcome
  split
  · exact ⟨_, _, _, _, _, _, _, rfl⟩
  split
  · exact ⟨_, _, _, _, _, _, _, rfl⟩
  unfold noteNativeOutcome
  split
  · exact ⟨_, _, _, _, _, _, _, rfl⟩
  split
  · exact ⟨_, _, _, _, _, _, _, rfl⟩
  split
  · exact ⟨_, _, _, _, _, _, _, rfl⟩
  split
  · exact ⟨_, _, _, _, _, _, _, rfl⟩
  · exact ⟨_, _, _, _, _, _, _, rfl⟩

theorem clock_suspend (task : Task) (suspension : PersistentTaskSuspension) (atMs : UInt64) :
    (suspend task suspension atMs).clock = task.clock.suspend atMs := rfl

theorem clock_resume (task : Task) (atMs : UInt64) :
    (resume task atMs).clock = task.clock.resume atMs := rfl

theorem clock_observeDistance (task : Task) (actor : ActorObservation) (board : Blackboard) :
    (observeDistance hypot task actor board).1.clock =
      task.clock.progress (makesProgress hypot task actor) board.observedAtMs := by
  simp only [observeDistance, noteDistance, makesProgress]
  split
  · next hheight => simp [hheight, Clock.progress, Task.clock]
  · next hheight =>
    split
    · next hcloser => simp [hheight, hcloser, Clock.progress, Task.clock]
    · next hfar => simp [hheight, hfar, Clock.progress, Task.clock]

theorem observeDistance_arrived (task : Task) (actor : ActorObservation) (board : Blackboard) :
    (observeDistance hypot task actor board).2 = arrives hypot task actor := by
  simp only [observeDistance, arrives]
  split
  · next hheight => simp [hheight]
  · next hheight => simp [hheight]

theorem clock_settle (task : Task) (arrived : Bool) (board : Blackboard) :
    (settle task arrived board).clock = task.clock.settle arrived board.observedAtMs := by
  cases arrived with
  | true => rfl
  | false =>
    by_cases hidle : board.observedAtMs > task.lastProgressAtMs
        ∧ board.observedAtMs - task.lastProgressAtMs ≥ noProgressFailureMs
    · simp [settle, Clock.settle, Task.clock, hidle]
    · simp [settle, Clock.settle, Task.clock, hidle]

/-- What an observation does to the clock of a live task. -/
theorem clock_observe {task : Task} (h : isTerminal task.state = false)
    (actor : ActorObservation) (board : Blackboard) :
    (observe hypot task actor board).clock =
      if ¬ actor.positionObserved then task.clock.suspend board.observedAtMs
      else if resumes hypot task (actor, board) then
        ((task.clock.resume board.observedAtMs).progress (makesProgress hypot task actor)
          board.observedAtMs).settle (arrives hypot task actor) board.observedAtMs
      else
        (task.clock.progress (makesProgress hypot task actor) board.observedAtMs).suspend
          board.observedAtMs := by
  obtain ⟨_, _, _, _, _, _, _, houtcome⟩ := observeNativeOutcome_clock hypot task actor board
  simp only [observe, h, Bool.false_eq_true, if_false, houtcome, resumes]
  by_cases hseen : actor.positionObserved = true
  · simp only [hseen, Bool.not_true, Bool.false_eq_true, if_false, not_true, Bool.true_and]
    split
    · next hsafe =>
      simp only [hsafe, Bool.not_true, Bool.false_eq_true, if_false, clock_suspend,
        clock_observeDistance]
      rfl
    · next hsafe =>
      rw [Bool.not_eq_true] at hsafe
      simp only [hsafe, Bool.not_false, if_true, clock_settle, clock_observeDistance, clock_resume,
        observeDistance_arrived]
      rfl
  · rw [Bool.not_eq_true] at hseen
    simp only [hseen, Bool.not_false, Bool.false_eq_true, if_true, not_false_eq_true,
      clock_suspend]
    rfl

/-! ### The two accounts agree -/

/-- What the clock of a task says when it is read at the time of the watch. -/
def ClockAgrees (clock : Clock) (watch : Watch) : Prop :=
  match clock.state with
  | .running => clock.lastProgressAtMs.toNat = watch.progressAtMs.toNat + watch.suspendedMs
  | .suspended =>
    clock.suspendedAtMs ≠ 0 ∧ clock.lastProgressAtMs ≤ clock.suspendedAtMs ∧
      clock.suspendedAtMs ≤ watch.observedAtMs ∧
      clock.lastProgressAtMs.toNat + watch.observedAtMs.toNat =
        watch.progressAtMs.toNat + watch.suspendedMs + clock.suspendedAtMs.toNat
  | .failed => noProgressFailureMs.toNat ≤ watch.activeMs
  | .succeeded => True
  | .aborted => True

/-- The watch runs and the clock agrees with it. -/
structure Agrees (clock : Clock) (watch : Watch) : Prop where
  started : watch.observedAtMs ≠ 0
  within : watch.progressAtMs.toNat + watch.suspendedMs ≤ watch.observedAtMs.toNat
  clock : ClockAgrees clock watch

theorem suspend_running (lastProgressAtMs suspendedAtMs atMs : UInt64) :
    Clock.suspend ⟨.running, lastProgressAtMs, suspendedAtMs⟩ atMs =
      ⟨.suspended, lastProgressAtMs, atMs⟩ := rfl

theorem suspend_suspended (lastProgressAtMs : UInt64) {suspendedAtMs : UInt64}
    (h : suspendedAtMs ≠ 0) (atMs : UInt64) :
    Clock.suspend ⟨.suspended, lastProgressAtMs, suspendedAtMs⟩ atMs =
      ⟨.suspended, lastProgressAtMs, suspendedAtMs⟩ := by
  simp [Clock.suspend, h]

theorem resume_running (lastProgressAtMs suspendedAtMs atMs : UInt64) :
    Clock.resume ⟨.running, lastProgressAtMs, suspendedAtMs⟩ atMs =
      ⟨.running, lastProgressAtMs, 0⟩ := rfl

theorem resume_suspended (lastProgressAtMs : UInt64) {suspendedAtMs : UInt64}
    (h : suspendedAtMs ≠ 0) (atMs : UInt64) :
    Clock.resume ⟨.suspended, lastProgressAtMs, suspendedAtMs⟩ atMs =
      ⟨.running,
        if atMs > suspendedAtMs then lastProgressAtMs + (atMs - suspendedAtMs)
        else lastProgressAtMs, 0⟩ := by
  simp [Clock.resume, h]

section

variable {clock : Clock} {watch : Watch} {atMs : UInt64}

theorem ne_zero_of_le (h : watch.observedAtMs ≠ 0) (hle : watch.observedAtMs ≤ atMs) :
    atMs ≠ 0 := by
  rintro rfl
  apply h
  apply UInt64.toNat_inj.mp
  rw [UInt64.le_iff_toNat_le, UInt64.toNat_zero] at hle
  exact Nat.le_zero.mp hle

theorem agrees_suspend (h : Agrees clock watch) (hlive : isTerminal clock.state = false)
    (hle : watch.observedAtMs ≤ atMs) :
    Agrees (clock.suspend atMs) (watch.advance clock.state atMs) := by
  obtain ⟨hstarted, hwithin, hclock⟩ := h
  have hpositive := ne_zero_of_le hstarted hle
  rw [le_iff_toNat_le] at hle
  obtain ⟨state, lastProgressAtMs, suspendedAtMs⟩ := clock
  cases state with
  | running =>
    have hlast : lastProgressAtMs.toNat = watch.progressAtMs.toNat + watch.suspendedMs := hclock
    rw [suspend_running]
    refine ⟨hpositive, ?_, hpositive, ?_, UInt64.le_refl atMs, ?_⟩
    · simp only [Watch.advance, reduceCtorEq, if_false]
      omega
    · simp only [le_iff_toNat_le]
      omega
    · simp only [Watch.advance, reduceCtorEq, if_false]
      omega
  | suspended =>
    obtain ⟨hnonzero, hlast, hsuspended, hsum⟩ := hclock
    rw [suspend_suspended lastProgressAtMs hnonzero]
    refine ⟨hpositive, ?_, hnonzero, hlast, ?_, ?_⟩
    · rw [le_iff_toNat_le] at hlast hsuspended
      simp only [Watch.advance, if_true] at hsum ⊢
      omega
    · rw [le_iff_toNat_le] at hsuspended ⊢
      exact Nat.le_trans hsuspended hle
    · simp only [Watch.advance, if_true] at hsum ⊢
      omega
  | succeeded => nomatch hlive
  | failed => nomatch hlive
  | aborted => nomatch hlive

theorem agrees_resume (h : Agrees clock watch) (hlive : isTerminal clock.state = false)
    (hle : watch.observedAtMs ≤ atMs) :
    Agrees (clock.resume atMs) (watch.advance clock.state atMs) := by
  obtain ⟨hstarted, hwithin, hclock⟩ := h
  have hpositive := ne_zero_of_le hstarted hle
  rw [le_iff_toNat_le] at hle
  obtain ⟨state, lastProgressAtMs, suspendedAtMs⟩ := clock
  cases state with
  | running =>
    have hlast : lastProgressAtMs.toNat = watch.progressAtMs.toNat + watch.suspendedMs := hclock
    rw [resume_running]
    refine ⟨hpositive, ?_, ?_⟩
    · simp only [Watch.advance, reduceCtorEq, if_false]
      omega
    · exact hlast
  | suspended =>
    obtain ⟨hnonzero, hlast, hsuspended, hsum⟩ := hclock
    rw [le_iff_toNat_le] at hlast hsuspended
    simp only at hnonzero hlast hsuspended hsum
    rw [resume_suspended lastProgressAtMs hnonzero]
    have hbound := atMs.toNat_lt
    refine ⟨hpositive, ?_, ?_⟩
    · simp only [Watch.advance, if_true]
      omega
    · simp only [ClockAgrees, Watch.advance, if_true]
      split
      · next hlater =>
        rw [gt_iff_lt, UInt64.lt_iff_toNat_lt] at hlater
        rw [UInt64.toNat_add, UInt64.toNat_sub_of_le _ _
          (UInt64.le_iff_toNat_le.mpr (Nat.le_of_lt hlater))]
        omega
      · next hnot =>
        rw [gt_iff_lt, lt_iff_toNat_lt] at hnot
        omega
  | succeeded => nomatch hlive
  | failed => nomatch hlive
  | aborted => nomatch hlive

/-- Progress starts both accounts anew. -/
theorem agrees_progress (hlive : isTerminal clock.state = false) (hpositive : atMs ≠ 0) :
    Agrees (clock.progress true atMs) (.started atMs) := by
  obtain ⟨state, lastProgressAtMs, suspendedAtMs⟩ := clock
  cases state with
  | running => exact ⟨hpositive, Nat.le_refl _, rfl⟩
  | suspended =>
    exact ⟨hpositive, Nat.le_refl _, hpositive, UInt64.le_refl atMs, UInt64.le_refl atMs, rfl⟩
  | succeeded => nomatch hlive
  | failed => nomatch hlive
  | aborted => nomatch hlive

/-- A running task fails exactly when it was active for too long without progress. -/
theorem agrees_settle (h : Agrees clock watch) (hrunning : clock.state = .running)
    (arrived : Bool) :
    Agrees (clock.settle arrived watch.observedAtMs) watch ∧
      ((clock.settle arrived watch.observedAtMs).state = .failed ↔
        arrived = false ∧ noProgressFailureMs.toNat ≤ watch.activeMs) := by
  obtain ⟨hstarted, hwithin, hclock⟩ := h
  obtain ⟨state, lastProgressAtMs, suspendedAtMs⟩ := clock
  subst hrunning
  have hlast : lastProgressAtMs.toNat = watch.progressAtMs.toNat + watch.suspendedMs := hclock
  cases arrived with
  | true =>
    refine ⟨⟨hstarted, hwithin, trivial⟩, ?_⟩
    simp [Clock.settle]
  | false =>
    have hidle : (watch.observedAtMs > lastProgressAtMs ∧
        watch.observedAtMs - lastProgressAtMs ≥ noProgressFailureMs) ↔
          noProgressFailureMs.toNat ≤ watch.activeMs := by
      have hsub : (watch.observedAtMs - lastProgressAtMs).toNat =
          watch.observedAtMs.toNat - lastProgressAtMs.toNat :=
        UInt64.toNat_sub_of_le _ _ (UInt64.le_iff_toNat_le.mpr (by omega))
      have hlimit : noProgressFailureMs.toNat = 5000 := rfl
      rw [gt_iff_lt, lt_iff_toNat_lt, ge_iff_le, le_iff_toNat_le, hsub,
        Watch.activeMs]
      omega
    by_cases hfails : noProgressFailureMs.toNat ≤ watch.activeMs
    · have hsettle : Clock.settle ⟨.running, lastProgressAtMs, suspendedAtMs⟩ false
          watch.observedAtMs = ⟨.failed, lastProgressAtMs, suspendedAtMs⟩ := by
        simp [Clock.settle, hidle.mpr hfails]
      rw [hsettle]
      exact ⟨⟨hstarted, hwithin, hfails⟩, by simp [hfails]⟩
    · have hsettle : Clock.settle ⟨.running, lastProgressAtMs, suspendedAtMs⟩ false
          watch.observedAtMs = ⟨.running, lastProgressAtMs, suspendedAtMs⟩ := by
        have hnot := mt hidle.mp hfails
        simp [Clock.settle, hnot]
      rw [hsettle]
      exact ⟨⟨hstarted, hwithin, hlast⟩, by simp [hfails]⟩

end

/-- No time passes for a watch just started. -/
theorem advance_started (state : PersistentTaskState) (atMs : UInt64) :
    (Watch.started atMs).advance state atMs = .started atMs := by
  simp only [Watch.started, Watch.advance]
  split
  · rw [Nat.sub_self]
  · rfl

theorem observedAtMs_observe (watch : Watch) (task : Task) (actor : ActorObservation)
    (atMs : UInt64) : (watch.observe hypot task actor atMs).observedAtMs = atMs := by
  unfold Watch.observe
  split
  · rfl
  · rfl

/-- One observation of a live task keeps the accounts in agreement, and the task fails at it
exactly when it goes on, has not arrived and was active for too long without progress. -/
theorem agrees_observe {task : Task} {watch : Watch} (h : Agrees task.clock watch)
    (hlive : isTerminal task.state = false) (observation : LaneObservation)
    (hle : watch.observedAtMs ≤ observation.2.observedAtMs) :
    Agrees (observe hypot task observation.1 observation.2).clock
        (watch.observe hypot task observation.1 observation.2.observedAtMs) ∧
      ((observe hypot task observation.1 observation.2).state = .failed ↔
        resumes hypot task observation = true ∧ arrives hypot task observation.1 = false ∧
          noProgressFailureMs.toNat ≤
            (watch.observe hypot task observation.1 observation.2.observedAtMs).activeMs) := by
  obtain ⟨actor, board⟩ := observation
  simp only at hle ⊢
  have hpositive := ne_zero_of_le h.started hle
  have hclock := clock_observe hypot hlive actor board
  have hstate : (observe hypot task actor board).state =
      (observe hypot task actor board).clock.state := rfl
  rw [hstate, hclock]
  have hlive' : isTerminal task.clock.state = false := hlive
  by_cases hseen : actor.positionObserved = true
  · rw [if_neg (not_not_intro hseen)]
    have hwatch : watch.observe hypot task actor board.observedAtMs =
        if makesProgress hypot task actor then .started board.observedAtMs
        else watch.advance task.state board.observedAtMs := by
      simp only [Watch.observe, hseen, Bool.true_and]
    rw [hwatch]
    by_cases hresumes : resumes hypot task (actor, board) = true
    · rw [if_pos hresumes]
      simp only [hresumes, true_and]
      cases hprogress : makesProgress hypot task actor with
      | true =>
        have hagrees : Agrees ((task.clock.resume board.observedAtMs).progress true
            board.observedAtMs) (.started board.observedAtMs) :=
          agrees_progress rfl hpositive
        exact agrees_settle hagrees rfl (arrives hypot task actor)
      | false => exact agrees_settle (agrees_resume h hlive' hle) rfl (arrives hypot task actor)
    · rw [if_neg hresumes]
      simp only [hresumes]
      cases hprogress : makesProgress hypot task actor with
      | true =>
        have hagrees := agrees_progress hlive' hpositive
        have hsuspended := agrees_suspend hagrees hlive' (UInt64.le_refl board.observedAtMs)
        rw [advance_started] at hsuspended
        exact ⟨hsuspended, by simp [Clock.suspend]⟩
      | false => exact ⟨agrees_suspend h hlive' hle, by simp [Clock.suspend]⟩
  · have hwatch : watch.observe hypot task actor board.observedAtMs =
        watch.advance task.state board.observedAtMs := by
      simp [Watch.observe, hseen]
    have hresumes : resumes hypot task (actor, board) = false := by
      simp [resumes, hseen]
    rw [if_pos hseen, hwatch, hresumes]
    exact ⟨agrees_suspend h hlive' hle, by simp [Clock.suspend]⟩

/-! ### Runs -/

/-- The task after a sequence of `Observe` calls. -/
def observeAll (task : Task) (observations : List LaneObservation) : Task :=
  StateMachine.run (fun task observation => observe hypot task observation.1 observation.2) task
    observations

/-- The task and the watch after a sequence of `Observe` calls. -/
def watchAll (watched : Task × Watch) (observations : List LaneObservation) : Task × Watch :=
  StateMachine.run (watchStep hypot) watched observations

/-- The watch does not interfere. -/
theorem watchAll_task (watched : Task × Watch) (observations : List LaneObservation) :
    (watchAll hypot watched observations).1 = observeAll hypot watched.1 observations := by
  induction observations generalizing watched with
  | nil => rfl
  | cons observation rest ih =>
    rw [watchAll, observeAll, StateMachine.run_cons, StateMachine.run_cons]
    refine (ih _).trans ?_
    unfold watchStep
    split
    · next hended =>
      have hsame : observe hypot watched.1 observation.1 observation.2 = watched.1 := by
        rw [observe, if_pos hended]
      rw [hsame]
      rfl
    · rfl

/-- The accounts agree after every sequence of observations in the order of time. -/
theorem agrees_watchAll (watched : Task × Watch) (h : Agrees watched.1.clock watched.2)
    (observations : List LaneObservation)
    (hordered : observations.Pairwise fun a b => a.2.observedAtMs ≤ b.2.observedAtMs)
    (hle : ∀ observation ∈ observations,
      watched.2.observedAtMs ≤ observation.2.observedAtMs) :
    Agrees (watchAll hypot watched observations).1.clock
      (watchAll hypot watched observations).2 := by
  induction observations generalizing watched with
  | nil => exact h
  | cons observation rest ih =>
    rw [List.pairwise_cons] at hordered
    rw [List.forall_mem_cons] at hle
    rw [watchAll, StateMachine.run_cons]
    by_cases hended : isTerminal watched.1.state = true
    · rw [watchStep, if_pos hended]
      exact ih watched h hordered.2 hle.2
    · rw [watchStep, if_neg hended]
      rw [Bool.not_eq_true] at hended
      apply ih _ (agrees_observe hypot h hended observation hle.1).1 hordered.2
      intro later hlater
      rw [observedAtMs_observe]
      exact hordered.1 later hlater

/-- A task fails for want of progress only, and suspended time never counts. -/
structure FailsOnlyIdle (task : Task) (watch : Watch) : Prop where
  /-- A failed task was active for too long since its last progress. -/
  idle : task.state = .failed → noProgressFailureMs.toNat ≤ watch.activeMs
  /-- At the next observation a live task fails exactly for this reason. -/
  next : ∀ observation : LaneObservation, isTerminal task.state = false →
    watch.observedAtMs ≤ observation.2.observedAtMs →
    ((observe hypot task observation.1 observation.2).state = .failed ↔
      resumes hypot task observation = true ∧ arrives hypot task observation.1 = false ∧
        noProgressFailureMs.toNat ≤
          (watch.observe hypot task observation.1 observation.2.observedAtMs).activeMs)

/-- From its creation, after every sequence of observations in the order of time, a task fails
only for want of progress. -/
theorem observeAll_failsOnlyIdle (episode : Episode) (guid : ObjectGuid) (generation : Nat)
    (actor : ActorObservation) (board : Blackboard) (hpositive : board.observedAtMs ≠ 0)
    (observations : List LaneObservation)
    (hordered : observations.Pairwise fun a b => a.2.observedAtMs ≤ b.2.observedAtMs)
    (hle : ∀ observation ∈ observations, board.observedAtMs ≤ observation.2.observedAtMs) :
    FailsOnlyIdle hypot
      (observeAll hypot (createdTask hypot episode guid generation actor board) observations)
      (watchAll hypot (createdTask hypot episode guid generation actor board,
        .started board.observedAtMs) observations).2 := by
  have hstart : Agrees (createdTask hypot episode guid generation actor board).clock
      (.started board.observedAtMs) := ⟨hpositive, Nat.le_refl _, rfl⟩
  have hagrees := agrees_watchAll hypot (createdTask hypot episode guid generation actor board,
    Watch.started board.observedAtMs) hstart observations hordered hle
  have htask := watchAll_task hypot (createdTask hypot episode guid generation actor board,
    Watch.started board.observedAtMs) observations
  rw [htask] at hagrees
  constructor
  · intro hfailed
    have hclock := hagrees.clock
    have hstate : (observeAll hypot (createdTask hypot episode guid generation actor board)
        observations).clock.state = .failed := hfailed
    simp only [ClockAgrees, hstate] at hclock
    exact hclock
  · intro observation hlive htime
    exact (agrees_observe hypot hagrees hlive observation htime).2

/-- The task of a mage 18 yards off the destination. -/
def crossing : Task :=
  createdTask (fun x _ => x.abs) {} 7 1 { position := ⟨18, 0, 0⟩ } { observedAtMs := 1000 }

/-- The mage comes closer, stands, is out of sight for eleven seconds, and stands for too long. -/
def stalls : List LaneObservation :=
  let mage : ActorObservation := { position := ⟨12, 0, 0⟩, positionObserved := true }
  [(mage, { observedAtMs := 2000 }), (mage, { observedAtMs := 4000 }),
    ({}, { observedAtMs := 5000 }), (mage, { observedAtMs := 16000 }),
    (mage, { observedAtMs := 18500 })]

theorem observeAll_failsOnlyIdle_unobserved :
    (observeAll (fun x _ => x.abs) crossing (stalls.take 4)).state = .running ∧
      (observeAll (fun x _ => x.abs) crossing stalls).state = .failed ∧
      FailsOnlyIdle (fun x _ => x.abs) (observeAll (fun x _ => x.abs) crossing stalls)
        (watchAll (fun x _ => x.abs) (crossing, .started 1000) stalls).2 :=
  ⟨by decide +kernel, by decide +kernel,
    observeAll_failsOnlyIdle (fun x _ => x.abs) {} 7 1 { position := ⟨18, 0, 0⟩ }
      { observedAtMs := 1000 } (by decide) stalls (by decide) (by decide)⟩

end TrinityCore.Magmaw.TransferLane
