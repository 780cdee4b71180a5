import Mathlib.Algebra.Ring.Nat
import Mathlib.Data.List.Chain
import TrinityCore.Lib.StateMachine

/-!
# Bounded attempts of a route interaction

`EvaluateAttemptGate`, `RecordAttempt` and `DecideInteraction` of
`BotValidationRouteNativeLogic.h`, and the ticks of one runtime scope that `RunInteraction`
feeds them. Times are the unsigned 64 bit milliseconds of the source; the sums with a
contract's limits wrap as they do there.
-/

namespace TrinityCore.Bots.RouteNative

open List Option StateMachine

/-- `InteractionAction`. -/
inductive InteractionAction where
  | none
  | gameObjectUse
  | gossipSelect
  | gossipSelectSequence
  | spellClick
  | vehicleEnter
  | areaTrigger
  deriving DecidableEq, Repr

/-- The fields of an `InteractionContract` that its decision and its gate read. -/
structure InteractionContract where
  action : InteractionAction := .none
  menus : List UInt32 := []
  timeoutMs : UInt32 := 0
  maxAttempts : UInt32 := 0
  retryIntervalMs : UInt32 := 0
  deriving DecidableEq, Repr

/-- `InteractionContract::IsGossip`. -/
def InteractionContract.isGossip (contract : InteractionContract) : Bool :=
  contract.action == .gossipSelect || contract.action == .gossipSelectSequence

/-- `AttemptState`. -/
structure AttemptState where
  lastSubmitAtMs : UInt64 := 0
  attempts : UInt32 := 0
  deriving DecidableEq, Repr

/-- `AttemptGate`. -/
inductive AttemptGate where
  | allowed
  | retryWait
  | attemptsExhausted
  | timedOut
  deriving DecidableEq, Repr

/-- `AttemptGateName`. -/
def attemptGateName : AttemptGate → String
  | .allowed => "allowed"
  | .retryWait => "native_interaction_retry_wait"
  | .attemptsExhausted => "native_interaction_attempts_exhausted"
  | .timedOut => "native_interaction_timeout"

/-- The local `retryWindowOpen` of `EvaluateAttemptGate`. -/
def retryWindowOpen (contract : InteractionContract) (state : AttemptState)
    (nowMs : UInt64) : Bool :=
  contract.retryIntervalMs != 0 && state.attempts != 0 &&
    decide (nowMs < state.lastSubmitAtMs + contract.retryIntervalMs.toUInt64)

/-- `EvaluateAttemptGate`. -/
def evaluateAttemptGate (contract : InteractionContract) (state : AttemptState)
    (startedAtMs nowMs : UInt64) : AttemptGate :=
  if contract.timeoutMs ≠ 0 ∧ startedAtMs + contract.timeoutMs.toUInt64 ≤ nowMs then .timedOut
  else if contract.maxAttempts ≠ 0 ∧ contract.maxAttempts ≤ state.attempts then
    if retryWindowOpen contract state nowMs then .retryWait else .attemptsExhausted
  else if retryWindowOpen contract state nowMs then .retryWait
  else .allowed

/-- `RecordAttempt`. -/
def recordAttempt (state : AttemptState) (nowMs : UInt64) : AttemptState where
  lastSubmitAtMs := nowMs
  attempts := state.attempts + 1

/-- `InteractionStep`. -/
inductive InteractionStep where
  | hold
  | fail
  | approach
  | use
  | gossipOpen
  | gossipSelect
  | spellClick
  | vehicleEnter
  | areaTrigger
  deriving DecidableEq, Repr

/-- `InteractionObservation`. -/
structure InteractionObservation where
  targetResolved : Bool := false
  targetAmbiguous : Bool := false
  inRange : Bool := false
  gossipBoundToTarget : Bool := false
  currentGossipMenu : UInt32 := 0
  deriving DecidableEq, Repr

/-- `InteractionDecision`. -/
structure InteractionDecision where
  step : InteractionStep := .hold
  countsAsAttempt : Bool := false
  reason : String := ""
  deriving DecidableEq, Repr

/-- The step that commits an action, none for an action that is not known. -/
def commitStep : InteractionAction → Option InteractionStep
  | .gameObjectUse => some .use
  | .spellClick => some .spellClick
  | .vehicleEnter => some .vehicleEnter
  | .areaTrigger => some .areaTrigger
  | .gossipSelect => some .gossipOpen
  | .gossipSelectSequence => some .gossipOpen
  | .none => none

/-- The reason the target of an action cannot be used, none when it can. -/
def targetMissing (action : InteractionAction) (observation : InteractionObservation) :
    Option String :=
  if action = .areaTrigger then
    if observation.targetResolved then none else some "native_interaction_area_trigger_invalid"
  else if observation.targetAmbiguous then some "native_interaction_target_ambiguous"
  else if observation.targetResolved then none
  else some "native_interaction_target_missing"

/-- `DecideInteraction`. -/
def decideInteraction (contract : InteractionContract) (observation : InteractionObservation)
    (gate : AttemptGate) : InteractionDecision :=
  if gate = .timedOut then ⟨.fail, false, attemptGateName gate⟩
  else match targetMissing contract.action observation with
    | some reason => ⟨.hold, false, reason⟩
    | none =>
      -- Continuing an open dialogue is part of the attempt that opened it.
      if contract.isGossip ∧ observation.inRange ∧ observation.gossipBoundToTarget ∧
          observation.currentGossipMenu ∈ contract.menus then
        ⟨.gossipSelect, false, "native_gossip_select"⟩
      else if gate = .attemptsExhausted then ⟨.fail, false, attemptGateName gate⟩
      else if ¬observation.inRange then ⟨.approach, false, "native_interaction_approach"⟩
      else match commitStep contract.action with
        | none => ⟨.hold, false, "native_interaction_action_unknown"⟩
        | some step =>
          if gate ≠ .allowed then ⟨.hold, false, attemptGateName gate⟩
          else ⟨step, true, "native_interaction_commit"⟩

variable {contract : InteractionContract} {observation : InteractionObservation}
  {now start nowMs startedAtMs t : UInt64} {state : AttemptState}

/-- A decision that counts as an attempt is made under an open gate only. -/
theorem gate_of_countsAsAttempt {gate : AttemptGate}
    (h : (decideInteraction contract observation gate).countsAsAttempt = true) :
    gate = .allowed := by
  by_contra hgate
  revert h
  rw [decideInteraction]
  split
  · simp
  · split
    · simp
    · split
      · simp
      · split
        · simp
        · split
          · simp
          · split
            · simp
            · simp

/-- The two failures tell which limit was met. -/
theorem gate_of_fail {gate : AttemptGate}
    (h : (decideInteraction contract observation gate).step = .fail) :
    gate = .timedOut ∨ gate = .attemptsExhausted := by
  have hcommit (action) : commitStep action ≠ some .fail := by cases action <;> simp [commitStep]
  revert h
  rw [decideInteraction]
  split
  case isTrue htimed => exact fun _ => .inl htimed
  case isFalse =>
    split
    · simp
    · split
      · simp
      · split
        case isTrue hexhausted => exact fun _ => .inr hexhausted
        case isFalse =>
          split
          · simp
          · split
            · simp
            · rename_i step hstep
              split
              · simp
              · intro hfail
                exact absurd (hstep.trans (congrArg some hfail)) (hcommit _)

/-- The failure that reports exhausted attempts is made under the exhausted gate. -/
theorem gate_of_exhausted {gate : AttemptGate}
    (hstep : (decideInteraction contract observation gate).step = .fail)
    (hreason : (decideInteraction contract observation gate).reason =
      attemptGateName .attemptsExhausted) : gate = .attemptsExhausted := by
  rcases gate_of_fail hstep with rfl | h
  · simp [decideInteraction, attemptGateName] at hreason
  · exact h

/-! ### One evaluation of the gate -/

/-- A millisecond time reaches the wrapped end of a window when it reaches the exact one. -/
theorem window_le {length : UInt32} (h : start.toNat + length.toNat ≤ now.toNat) :
    start + length.toUInt64 ≤ now := by
  rw [UInt64.le_iff_toNat_le, UInt64.toNat_add, UInt32.toNat_toUInt64]
  exact Nat.le_trans (Nat.mod_le _ _) h

/-- The other way round the sum must not wrap. -/
theorem le_of_window_le {length : UInt32} (hwrap : start.toNat + length.toNat < 2 ^ 64)
    (h : start + length.toUInt64 ≤ now) : start.toNat + length.toNat ≤ now.toNat := by
  rwa [UInt64.le_iff_toNat_le, UInt64.toNat_add, UInt32.toNat_toUInt64, Nat.mod_eq_of_lt hwrap] at h

/-- Outside the retry window the interval has passed since the last of the attempts. -/
theorem interval_le (hopen : retryWindowOpen contract state nowMs = false)
    (hattempts : state.attempts ≠ 0)
    (hwrap : state.lastSubmitAtMs.toNat + contract.retryIntervalMs.toNat < 2 ^ 64)
    (hlast : state.lastSubmitAtMs ≤ nowMs) :
    state.lastSubmitAtMs.toNat + contract.retryIntervalMs.toNat ≤ nowMs.toNat := by
  by_cases hretry : contract.retryIntervalMs = 0
  · simpa [hretry] using UInt64.le_iff_toNat_le.mp hlast
  · apply le_of_window_le hwrap
    simpa [retryWindowOpen, hretry, hattempts] using hopen

/-- What an open gate means. -/
theorem evaluateAttemptGate_eq_allowed_iff :
    evaluateAttemptGate contract state startedAtMs nowMs = .allowed ↔
      (contract.timeoutMs ≠ 0 → nowMs < startedAtMs + contract.timeoutMs.toUInt64) ∧
      (contract.maxAttempts ≠ 0 → state.attempts < contract.maxAttempts) ∧
      retryWindowOpen contract state nowMs = false := by
  rw [evaluateAttemptGate]
  split
  case isTrue h => simpa [h.1] using fun hlt => absurd hlt (UInt64.not_lt.mpr h.2)
  case isFalse h =>
    have htime : contract.timeoutMs ≠ 0 → nowMs < startedAtMs + contract.timeoutMs.toUInt64 :=
      fun htimeout => UInt64.not_le.mp fun hle => h ⟨htimeout, hle⟩
    split
    case isTrue hmax =>
      have hlt : ¬ state.attempts < contract.maxAttempts := UInt32.not_lt.mpr hmax.2
      split <;> simp [hmax.1, hlt]
    case isFalse hmax =>
      have hlt : contract.maxAttempts ≠ 0 → state.attempts < contract.maxAttempts :=
        fun hpos => UInt32.not_le.mp fun hle => hmax ⟨hpos, hle⟩
      split
      case isTrue hopen => simp [hopen]
      case isFalse hopen =>
        simp only [true_iff]
        exact ⟨htime, hlt, by simpa using hopen⟩

/-- An exhausted gate has every attempt behind it, the last one a full interval ago. -/
theorem of_evaluateAttemptGate_eq_exhausted
    (h : evaluateAttemptGate contract state startedAtMs nowMs = .attemptsExhausted) :
    contract.maxAttempts ≠ 0 ∧ contract.maxAttempts ≤ state.attempts ∧
      retryWindowOpen contract state nowMs = false := by
  revert h
  rw [evaluateAttemptGate]
  split
  · simp
  · split
    case isTrue hmax =>
      split
      · simp
      case isFalse hopen => exact fun _ => ⟨hmax.1, hmax.2, by simpa using hopen⟩
    case isFalse => split <;> simp

/-! ### The ticks of one scope -/

/-- One cohort observation tick: what `RunInteraction` observes, when, and whether the request
of an attempt gets as far as `RecordAttempt`. -/
structure Tick where
  observation : InteractionObservation
  nowMs : UInt64
  recorded : Bool

/-- The attempt state of a scope, with its latest time and the times of all its attempts. -/
structure AttemptRun where
  attempt : AttemptState := {}
  nowMs : UInt64
  times : List UInt64 := []

/-- A scope that was entered at `startedAtMs`. -/
def enteredAt (startedAtMs : UInt64) : AttemptRun where
  nowMs := startedAtMs

/-- The decision of one tick, under the gate of that tick. -/
def decisionAt (contract : InteractionContract) (startedAtMs : UInt64) (state : AttemptState)
    (tick : Tick) : InteractionDecision :=
  decideInteraction contract tick.observation
    (evaluateAttemptGate contract state startedAtMs tick.nowMs)

/-- One tick of `RunInteraction`. -/
def attemptTick (contract : InteractionContract) (startedAtMs : UInt64) (run : AttemptRun)
    (tick : Tick) : AttemptRun :=
  if (decisionAt contract startedAtMs run.attempt tick).countsAsAttempt ∧ tick.recorded then
    { attempt := recordAttempt run.attempt tick.nowMs
      nowMs := tick.nowMs
      times := run.times ++ [tick.nowMs] }
  else { run with nowMs := tick.nowMs }

/-- The tick is not before the ones of the run. -/
def inOrder (run : AttemptRun) (tick : Tick) : Prop := run.nowMs ≤ tick.nowMs

instance (run : AttemptRun) (tick : Tick) : Decidable (inOrder run tick) :=
  inferInstanceAs (Decidable (run.nowMs ≤ tick.nowMs))

/-- A tick either leaves the attempts alone or makes one under an open gate. -/
theorem attemptTick_cases (contract : InteractionContract) (startedAtMs : UInt64)
    (run : AttemptRun) (tick : Tick) :
    attemptTick contract startedAtMs run tick = { run with nowMs := tick.nowMs } ∨
    evaluateAttemptGate contract run.attempt startedAtMs tick.nowMs = .allowed ∧
      attemptTick contract startedAtMs run tick =
        { attempt := recordAttempt run.attempt tick.nowMs
          nowMs := tick.nowMs
          times := run.times ++ [tick.nowMs] } := by
  rw [attemptTick]
  split
  case isTrue h => exact .inr ⟨gate_of_countsAsAttempt h.1, rfl⟩
  case isFalse => exact .inl rfl

/-- The attempt state is the one of the attempts made, and these stay inside the limits. -/
structure Counted (contract : InteractionContract) (startedAtMs : UInt64)
    (run : AttemptRun) : Prop where
  attempts : run.attempt.attempts = UInt32.ofNat run.times.length
  last : ∀ t ∈ run.times.getLast?, run.attempt.lastSubmitAtMs = t
  started : startedAtMs ≤ run.nowMs
  past : ∀ t ∈ run.times, t ≤ run.nowMs
  limit : contract.maxAttempts ≠ 0 → run.times.length ≤ contract.maxAttempts.toNat
  timeout : contract.timeoutMs ≠ 0 →
    ∀ t ∈ run.times, t.toNat < startedAtMs.toNat + contract.timeoutMs.toNat

theorem counted_enteredAt (contract : InteractionContract) (startedAtMs : UInt64) :
    Counted contract startedAtMs (enteredAt startedAtMs) where
  attempts := rfl
  last := by simp [enteredAt]
  started := UInt64.le_refl _
  past := by simp [enteredAt]
  limit := by simp [enteredAt]
  timeout := by simp [enteredAt]

/-- Under a declared maximum the counter does not wrap. -/
theorem Counted.attempts_toNat {run : AttemptRun} (h : Counted contract startedAtMs run)
    (hlength : run.times.length < 2 ^ 32) : run.attempt.attempts.toNat = run.times.length := by
  rw [h.attempts, UInt32.toNat_ofNat']
  exact Nat.mod_eq_of_lt hlength

/-- Every tick keeps the attempts inside the limits. -/
theorem Counted.attemptTick {run : AttemptRun} (h : Counted contract startedAtMs run) {tick : Tick}
    (htick : inOrder run tick) :
    Counted contract startedAtMs (attemptTick contract startedAtMs run tick) := by
  have hpast (t) (ht : t ∈ run.times) : t ≤ tick.nowMs := UInt64.le_trans (h.past t ht) htick
  have hstarted : startedAtMs ≤ tick.nowMs := UInt64.le_trans h.started htick
  rcases attemptTick_cases contract startedAtMs run tick with heq | ⟨hgate, heq⟩
  · rw [heq]
    exact { h with past := hpast, started := hstarted }
  · obtain ⟨htime, hmax, -⟩ := evaluateAttemptGate_eq_allowed_iff.mp hgate
    rw [heq]
    constructor
    case attempts => simp [recordAttempt, h.attempts]
    case last => simp [recordAttempt]
    case started => exact hstarted
    case past =>
      intro t ht
      rcases mem_append.mp ht with ht | ht
      · exact hpast t ht
      · simp [mem_singleton.mp ht]
    case limit =>
      intro hpos
      have hlength := h.limit hpos
      have hlt := UInt32.lt_iff_toNat_lt.mp (hmax hpos)
      rw [h.attempts_toNat (by have := contract.maxAttempts.toNat_lt; omega)] at hlt
      simp only [length_append, length_singleton]
      omega
    case timeout =>
      intro htimeout t ht
      rcases mem_append.mp ht with ht | ht
      · exact h.timeout htimeout t ht
      · rw [mem_singleton.mp ht]
        by_contra hle
        exact UInt64.not_le.mpr (htime htimeout) (window_le (by omega))

theorem counted_run (contract : InteractionContract) (startedAtMs : UInt64) (ticks : List Tick)
    (hticks : StateMachine.Admits (attemptTick contract startedAtMs) inOrder
      (enteredAt startedAtMs) ticks) :
    Counted contract startedAtMs
      (run (attemptTick contract startedAtMs) (enteredAt startedAtMs) ticks) :=
  run_invariant_of_admits (counted_enteredAt contract startedAtMs)
    (fun _ _ h htick => h.attemptTick htick) ticks hticks

/-! ### The retry interval -/

/-- Two attempts with the retry interval between them, unless its end is past every time. -/
def Apart (contract : InteractionContract) (t t' : UInt64) : Prop :=
  t.toNat + contract.retryIntervalMs.toNat < 2 ^ 64 →
    t.toNat + contract.retryIntervalMs.toNat ≤ t'.toNat

/-- Successive attempts are apart, so that their number is bounded by the time that passed. -/
structure Spaced (contract : InteractionContract) (startedAtMs : UInt64)
    (run : AttemptRun) : Prop where
  spaced : run.times.IsChain (Apart contract)
  slow : contract.retryIntervalMs ≠ 0 → ∀ t ∈ run.times.getLast?,
    t.toNat + contract.retryIntervalMs.toNat < 2 ^ 64 →
      startedAtMs.toNat + run.times.length ≤ t.toNat + 1

theorem spaced_enteredAt (contract : InteractionContract) (startedAtMs : UInt64) :
    Spaced contract startedAtMs (enteredAt startedAtMs) where
  spaced := by simp [enteredAt]
  slow := by simp [enteredAt]

section

variable {run : AttemptRun} (hs : Spaced contract startedAtMs run)
include hs

section

variable (hc : Counted contract startedAtMs run)
include hc

/-- Either limit keeps the attempts too few to wrap their counter; without one the run does. -/
theorem Spaced.length_lt
    (hfew : contract.maxAttempts = 0 → contract.timeoutMs = 0 → run.times.length < 2 ^ 32)
    (hretry : contract.retryIntervalMs ≠ 0) (ht : t ∈ run.times.getLast?)
    (hwrap : t.toNat + contract.retryIntervalMs.toNat < 2 ^ 64) : run.times.length < 2 ^ 32 := by
  by_cases hmax : contract.maxAttempts = 0
  · by_cases htimeout : contract.timeoutMs = 0
    · exact hfew hmax htimeout
    · have hslow := hs.slow hretry t ht hwrap
      have hbefore := hc.timeout htimeout t (mem_of_getLast? ht)
      have hword := contract.timeoutMs.toNat_lt
      omega
  · have hlimit := hc.limit hmax
    have hword := contract.maxAttempts.toNat_lt
    omega

/-- Once the retry window is closed, the next attempt is apart from the last one. -/
theorem Spaced.apart
    (hfew : contract.maxAttempts = 0 → contract.timeoutMs = 0 → run.times.length < 2 ^ 32)
    (hnow : run.nowMs ≤ nowMs) (hopen : retryWindowOpen contract run.attempt nowMs = false)
    (ht : t ∈ run.times.getLast?) : Apart contract t nowMs := by
  intro hwrap
  have hle : t ≤ nowMs := UInt64.le_trans (hc.past t (mem_of_getLast? ht)) hnow
  by_cases hretry : contract.retryIntervalMs = 0
  · simpa [hretry] using UInt64.le_iff_toNat_le.mp hle
  · have hlength := hs.length_lt hc hfew hretry ht hwrap
    have hattempts : run.attempt.attempts ≠ 0 := by
      intro hzero
      have hnone := hc.attempts_toNat hlength
      rw [hzero] at hnone
      have hempty : run.times = [] := length_eq_zero_iff.mp hnone.symm
      simp [hempty] at ht
    have hlast := hc.last t ht
    subst hlast
    exact interval_le hopen hattempts hwrap hle

/-- Every tick keeps the attempts apart. -/
theorem Spaced.attemptTick {tick : Tick} (htick : inOrder run tick)
    (hfew : contract.maxAttempts = 0 → contract.timeoutMs = 0 →
      (attemptTick contract startedAtMs run tick).times.length ≤ 2 ^ 32) :
    Spaced contract startedAtMs (attemptTick contract startedAtMs run tick) := by
  rcases attemptTick_cases contract startedAtMs run tick with heq | ⟨hgate, heq⟩
  · rw [heq]
    exact ⟨hs.spaced, hs.slow⟩
  · obtain ⟨-, -, hopen⟩ := evaluateAttemptGate_eq_allowed_iff.mp hgate
    rw [heq] at hfew ⊢
    have hless (hmax : contract.maxAttempts = 0) (htimeout : contract.timeoutMs = 0) :
        run.times.length < 2 ^ 32 := by
      have hlength := hfew hmax htimeout
      rw [length_append, length_singleton] at hlength
      omega
    have hapart (t) (ht : t ∈ run.times.getLast?) : Apart contract t tick.nowMs :=
      hs.apart hc hless htick hopen ht
    constructor
    case spaced =>
      apply isChain_append.mpr
      refine ⟨hs.spaced, isChain_singleton _, ?_⟩
      intro t ht t' ht'
      simp only [head?_cons, mem_def, some.injEq] at ht'
      exact ht' ▸ hapart t ht
    case slow =>
      intro hretry t' ht' hwrap
      simp only [getLast?_concat, mem_def, some.injEq] at ht'
      subst ht'
      simp only [length_append, length_singleton]
      cases hlast : run.times.getLast? with
      | none =>
        have hstarted := UInt64.le_iff_toNat_le.mp (UInt64.le_trans hc.started htick)
        rw [getLast?_eq_none_iff] at hlast
        simp only [hlast, length_nil]
        omega
      | some t =>
        have hle := UInt64.le_iff_toNat_le.mp
          (UInt64.le_trans (hc.past t (mem_of_getLast? hlast)) htick)
        have hslow := hs.slow hretry t hlast (by omega)
        have hnext := hapart t hlast (by omega)
        have hpos : contract.retryIntervalMs.toNat ≠ 0 := by
          simpa [← UInt32.toNat_inj] using hretry
        omega

end

end

/-- The attempts made stay made. -/
theorem length_le_length_run (contract : InteractionContract) (startedAtMs : UInt64)
    (run : AttemptRun) (ticks : List Tick) :
    run.times.length ≤
      (StateMachine.run (attemptTick contract startedAtMs) run ticks).times.length := by
  let inv (other : AttemptRun) : Prop := run.times.length ≤ other.times.length
  have hinit : inv run := Nat.le_refl _
  apply run_invariant hinit
  intro other tick h
  rcases attemptTick_cases contract startedAtMs other tick with heq | ⟨-, heq⟩
  · simpa [heq] using h
  · simp only [inv, heq, length_append] at h ⊢
    omega

theorem Spaced.run {run : AttemptRun}
    (hs : Spaced contract startedAtMs run) (hc : Counted contract startedAtMs run)
    {ticks : List Tick}
    (hticks : StateMachine.Admits (TrinityCore.Bots.RouteNative.attemptTick contract startedAtMs)
      inOrder run ticks)
    (hfew : contract.maxAttempts = 0 → contract.timeoutMs = 0 →
      (StateMachine.run (TrinityCore.Bots.RouteNative.attemptTick contract startedAtMs) run
        ticks).times.length ≤ 2 ^ 32) :
    Spaced contract startedAtMs
      (StateMachine.run (TrinityCore.Bots.RouteNative.attemptTick contract startedAtMs) run
        ticks) := by
  induction ticks generalizing run with
  | nil => exact hs
  | cons tick ticks ih =>
    have hfirst := hs.attemptTick hc hticks.1 fun hmax htimeout =>
      Nat.le_trans (length_le_length_run contract startedAtMs _ ticks) (hfew hmax htimeout)
    exact ih hfirst (hc.attemptTick hticks.1) hticks.2 hfew

/-- The exhausted failure waits for the interval of the last attempt. -/
theorem Counted.apart_of_exhausted
    {run : AttemptRun} (hc : Counted contract startedAtMs run) {tick : Tick}
    (htick : inOrder run tick)
    (hstep : (decisionAt contract startedAtMs run.attempt tick).step = .fail)
    (hreason : (decisionAt contract startedAtMs run.attempt tick).reason =
      attemptGateName .attemptsExhausted) :
    ∀ t ∈ run.times.getLast?, Apart contract t tick.nowMs := by
  obtain ⟨hmax, hspent, hopen⟩ :=
    of_evaluateAttemptGate_eq_exhausted (gate_of_exhausted hstep hreason)
  have hattempts : run.attempt.attempts ≠ 0 := by
    intro hzero
    rw [hzero] at hspent
    exact hmax (UInt32.le_zero_iff.mp hspent)
  intro t ht hwrap
  have hle : t ≤ tick.nowMs := UInt64.le_trans (hc.past t (mem_of_getLast? ht)) htick
  have hlast := hc.last t ht
  subst hlast
  exact interval_le hopen hattempts hwrap hle

/-- The limits of a contract hold over every run of one scope: the number of attempts, their
time, the interval between two of them, and the interval before the run is given up. Only a
sum past the 64 bit clock, and a contract without any limit whose counter wraps, escape the
interval. -/
theorem attempts_bounded_and_spaced (contract : InteractionContract) (startedAtMs : UInt64)
    (ticks : List Tick)
    (hticks : StateMachine.Admits (attemptTick contract startedAtMs) inOrder
      (enteredAt startedAtMs) ticks) :
    let final :=
      StateMachine.run (attemptTick contract startedAtMs) (enteredAt startedAtMs) ticks
    (contract.maxAttempts ≠ 0 → final.times.length ≤ contract.maxAttempts.toNat) ∧
    (contract.timeoutMs ≠ 0 →
      ∀ t ∈ final.times, t.toNat < startedAtMs.toNat + contract.timeoutMs.toNat) ∧
    ((contract.maxAttempts = 0 → contract.timeoutMs = 0 → final.times.length ≤ 2 ^ 32) →
      final.times.IsChain (Apart contract)) ∧
    ∀ tick, inOrder final tick →
      (decisionAt contract startedAtMs final.attempt tick).step = .fail →
      (decisionAt contract startedAtMs final.attempt tick).reason =
        attemptGateName .attemptsExhausted →
      ∀ t ∈ final.times.getLast?, Apart contract t tick.nowMs := by
  intro final
  have hc : Counted contract startedAtMs final := counted_run contract startedAtMs ticks hticks
  constructor
  · exact hc.limit
  · constructor
    · exact hc.timeout
    · constructor
      · intro hfew
        exact ((spaced_enteredAt contract startedAtMs).run
          (counted_enteredAt contract startedAtMs) hticks hfew).spaced
      · intro tick htick hstep hreason
        exact hc.apart_of_exhausted htick hstep hreason

/-- A lever with two attempts, ten seconds and one second between the attempts. -/
def leverContract : InteractionContract where
  action := .gameObjectUse
  timeoutMs := 10000
  maxAttempts := 2
  retryIntervalMs := 1000

/-- A committed request on a lever in reach. -/
def leverTick (nowMs : UInt64) : Tick where
  observation := { targetResolved := true, inRange := true }
  nowMs := nowMs
  recorded := true

/-- Two attempts on a lever, a second apart. -/
theorem attempts_bounded_and_spaced_lever :
    (StateMachine.run (attemptTick leverContract 500) (enteredAt 500)
      [leverTick 500, leverTick 900, leverTick 1500]).times = [500, 1500] ∧
    [(500 : UInt64), 1500].IsChain (Apart leverContract) := by
  have htimes : (StateMachine.run (attemptTick leverContract 500) (enteredAt 500)
      [leverTick 500, leverTick 900, leverTick 1500]).times = [500, 1500] := by decide
  have hspaced := (attempts_bounded_and_spaced leverContract 500
    [leverTick 500, leverTick 900, leverTick 1500]
    ⟨by decide, by decide, by decide, trivial⟩).2.2.1 (by decide)
  rw [htimes] at hspaced
  exact ⟨htimes, hspaced⟩

/-- Half a second before the clock's end the sum with the interval wraps: two attempts at once. -/
theorem attempts_not_spaced_at_clock_end :
    ¬ ∀ (contract : InteractionContract) (startedAtMs : UInt64) (ticks : List Tick),
      StateMachine.Admits (attemptTick contract startedAtMs) inOrder
        (enteredAt startedAtMs) ticks →
      (StateMachine.run (attemptTick contract startedAtMs) (enteredAt startedAtMs)
        ticks).times.IsChain
          fun t t' => t.toNat + contract.retryIntervalMs.toNat ≤ t'.toNat := by
  intro h
  let late : UInt64 := 18446744073709551116
  have htimes := h { leverContract with timeoutMs := 4900 } 18446744073709546616
    [leverTick late, leverTick late] ⟨by decide, by decide, trivial⟩
  revert htimes
  decide

end TrinityCore.Bots.RouteNative
