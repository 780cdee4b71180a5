import Mathlib.Data.List.Chain
import TrinityCore.Bots.ControllerRouteHold
import TrinityCore.Lib.StateMachine

/-!
# The protocol of the route hold

A run of calls is recorded beside the hold: the phases since the last accepted `BeginAcquire`, and
the accepted operations since then. The phases move one way and a hold that completed acquisition
denies the route until it is released, in exactly the runs where no operation comes too late and
no invalid bootstrap replaces the hold.
-/

namespace TrinityCore.Bots.ControllerRouteHold

open List

open ActionArbitration (AdmissionMetadata Proposal conflicts)

/-! ### What one call does -/

/-- The operations that expect an acquired hold and do not retain a released one. -/
def Call.isLate : Call → Bool
  | .completeAcquire .. | .acknowledgeArm .. | .observeCheckpointTerminal .. => true
  | _ => false

/-- The operations that are asked for permission. -/
def Call.isQuery : Call → Bool
  | .admitCandidate .. | .permitRouteAdvance .. | .validateIdentity .. => true
  | _ => false

/-- Everything a call can do to the phase and to the identity of a hold. -/
inductive Performs (state : State) : Call → State → Bool → Prop
  | begins {bootstrap : Identity} {nowMs : UInt64} {state' : State}
      (hvalid : bootstrap.validBootstrap = true) (hphase : state'.currentPhase = .acquiring)
      (hscope : state'.scope = bootstrap) :
      Performs state (.beginAcquire bootstrap nowMs) state' true
  | resets {bootstrap : Identity} {nowMs : UInt64} {state' : State}
      (hnew : ¬(state.holding = true ∧ state.scope.attemptId = bootstrap.attemptId))
      (hinvalid : bootstrap.validBootstrap = false) (hphase : state'.currentPhase = .failed)
      (hscope : state'.scope = {}) :
      Performs state (.beginAcquire bootstrap nowMs) state' false
  | completes {identity : Identity} {nowMs : UInt64} {state' : State}
      (hbefore : state.currentPhase = .acquiring) (hvalid : identity.validComplete = true)
      (hphase : state'.currentPhase = .held) (hscope : state'.scope = identity) :
      Performs state (.completeAcquire identity nowMs) state' true
  | arms {nowMs : UInt64} {state' : State} (hbefore : state.currentPhase = .held)
      (hphase : state'.currentPhase = .armed) (hscope : state'.scope = state.scope) :
      Performs state (.acknowledgeArm state.scope nowMs) state' true
  | observes {stage : String} {nowMs : UInt64} {state' : State}
      (hbefore : state.currentPhase = .armed) (hphase : state'.currentPhase = .checkpointTerminal)
      (hscope : state'.scope = state.scope) :
      Performs state (.observeCheckpointTerminal state.scope stage true true nowMs) state' true
  | releases {nowMs : UInt64} {state' : State}
      (hbefore : state.currentPhase = .checkpointTerminal)
      (hphase : state'.currentPhase = .released) (hscope : state'.scope = state.scope) :
      Performs state (.release state.scope nowMs) state' true
  | fails {call : Call} {state' : State} {accepted : Bool}
      (hlate : state.currentPhase = .released → call.isLate = true)
      (hphase : state'.currentPhase = .failed) (hscope : state'.scope = state.scope)
      (hquiet : accepted = false ∨ call.isQuery = true)
      (hduplicate : ∀ bootstrap nowMs, call = .beginAcquire bootstrap nowMs →
        state.scope.attemptId = bootstrap.attemptId) :
      Performs state call state' accepted
  | stays {call : Call} {state' : State} {accepted : Bool}
      (hlate : state.currentPhase = .released → call.isLate = false)
      (hphase : state'.currentPhase = state.currentPhase) (hscope : state'.scope = state.scope)
      (hquiet : accepted = false ∨ call.isQuery = true)
      (hother : ∀ bootstrap nowMs, call ≠ .beginAcquire bootstrap nowMs) :
      Performs state call state' accepted

variable {state state' : State} {identity : Identity}

/-- Identities are compared in every phase but the two without a hold. -/
theorem validateIdentity_cases (state : State) (identity : Identity) :
    ((state.currentPhase = .disabled ∨ state.currentPhase = .released ∨ state.scope = identity) ∧
      state.validateIdentity identity = (state, true)) ∨
    ∃ failed, state.validateIdentity identity = (failed, false) ∧
      state.currentPhase ≠ .released ∧ failed.currentPhase = .failed ∧
      failed.scope = state.scope := by
  unfold State.validateIdentity
  split
  · next hfree =>
    left
    exact ⟨hfree.imp_right Or.inl, rfl⟩
  · next hhold =>
    split
    · next hsame =>
      left
      exact ⟨.inr (.inr hsame), rfl⟩
    · right
      exact ⟨_, rfl, fun h => hhold (.inr h), rfl, rfl⟩

theorem performs_beginAcquire (state : State) (bootstrap : Identity) (nowMs : UInt64) :
    Performs state (.beginAcquire bootstrap nowMs) (state.beginAcquire bootstrap nowMs).1
      (state.beginAcquire bootstrap nowMs).2.accepted := by
  unfold State.beginAcquire
  split
  · next hduplicate =>
    simp only [Bool.and_eq_true, beq_iff_eq] at hduplicate
    refine Performs.fails (fun hreleased => ?_) rfl rfl (.inl rfl) ?_
    · rw [State.holding, hreleased] at hduplicate
      exact absurd hduplicate.1 (by decide)
    · rintro _ _ ⟨⟩
      exact hduplicate.2
  · next hnew =>
    simp only [Bool.and_eq_true, beq_iff_eq] at hnew
    split
    · next hinvalid => exact Performs.resets hnew (by simpa using hinvalid) rfl rfl
    · next hvalid => exact Performs.begins (by simpa using hvalid) rfl rfl

theorem performs_completeAcquire (state : State) (identity : Identity) (nowMs : UInt64) :
    Performs state (.completeAcquire identity nowMs) (state.completeAcquire identity nowMs).1
      (state.completeAcquire identity nowMs).2.accepted := by
  unfold State.completeAcquire
  split
  · exact Performs.fails (fun _ => rfl) rfl rfl (.inl rfl) nofun
  · next hphase =>
    split
    · exact Performs.fails (fun _ => rfl) rfl rfl (.inl rfl) nofun
    · next hvalid =>
      simp only [Bool.or_eq_true, Bool.not_eq_true', not_or, Bool.not_eq_false] at hvalid
      exact Performs.completes (not_not.mp hphase) hvalid.1 rfl rfl

theorem performs_acknowledgeArm (state : State) (identity : Identity) (nowMs : UInt64) :
    Performs state (.acknowledgeArm identity nowMs) (state.acknowledgeArm identity nowMs).1
      (state.acknowledgeArm identity nowMs).2.accepted := by
  unfold State.acknowledgeArm
  split
  · exact Performs.fails (fun _ => rfl) rfl rfl (.inl rfl) nofun
  · split
    · exact Performs.fails (fun _ => rfl) rfl rfl (.inl rfl) nofun
    · next hphase =>
      rw [not_not] at hphase
      obtain ⟨hsame, heq⟩ | ⟨failed, hdrift, -, hfailed, hscope⟩ :=
        validateIdentity_cases state identity
      · rw [heq]
        obtain rfl : state.scope = identity := by simpa [hphase] using hsame
        exact Performs.arms hphase rfl rfl
      · rw [hdrift]
        exact Performs.fails (fun _ => rfl) hfailed hscope (.inl rfl) nofun

theorem performs_observeCheckpointTerminal (state : State) (identity : Identity) (stage : String)
    (terminal identityPreserved : Bool) (nowMs : UInt64) :
    Performs state (.observeCheckpointTerminal identity stage terminal identityPreserved nowMs)
      (state.observeCheckpointTerminal identity stage terminal identityPreserved nowMs).1
      (state.observeCheckpointTerminal identity stage terminal identityPreserved
        nowMs).2.accepted := by
  unfold State.observeCheckpointTerminal
  split
  · exact Performs.fails (fun _ => rfl) rfl rfl (.inl rfl) nofun
  · next hphase =>
    rw [not_not] at hphase
    obtain ⟨hsame, heq⟩ | ⟨failed, hdrift, -, hfailed, hscope⟩ :=
        validateIdentity_cases state identity
    · rw [heq]
      obtain rfl : state.scope = identity := by simpa [hphase] using hsame
      cases terminal with
      | false => exact Performs.fails (fun _ => rfl) rfl rfl (.inl rfl) nofun
      | true =>
        cases identityPreserved with
        | false => exact Performs.fails (fun _ => rfl) rfl rfl (.inl rfl) nofun
        | true => exact Performs.observes hphase rfl rfl
    · rw [hdrift]
      exact Performs.fails (fun _ => rfl) hfailed hscope (.inl rfl) nofun

theorem performs_release (state : State) (identity : Identity) (nowMs : UInt64) :
    Performs state (.release identity nowMs) (state.release identity nowMs).1
      (state.release identity nowMs).2.accepted := by
  unfold State.release
  split
  · exact Performs.stays (fun _ => rfl) rfl rfl (.inl rfl) nofun
  · next hfirst =>
    have hreleased : state.currentPhase ≠ .released := fun h => hfirst (.inl h)
    split
    · exact Performs.fails (fun h => absurd h hreleased) rfl rfl (.inl rfl) nofun
    · next hphase =>
      rw [not_not] at hphase
      obtain ⟨hsame, heq⟩ | ⟨failed, hdrift, -, hfailed, hscope⟩ :=
        validateIdentity_cases state identity
      · rw [heq]
        obtain rfl : state.scope = identity := by simpa [hphase] using hsame
        exact Performs.releases hphase rfl rfl
      · rw [hdrift]
        exact Performs.fails (fun h => absurd h hreleased) hfailed hscope (.inl rfl) nofun

theorem performs_validateIdentity (state : State) (identity : Identity) :
    Performs state (.validateIdentity identity) (state.validateIdentity identity).1
      (state.validateIdentity identity).2 := by
  obtain ⟨-, heq⟩ | ⟨failed, hdrift, hreleased, hfailed, hscope⟩ :=
    validateIdentity_cases state identity
  · rw [heq]
    exact Performs.stays (fun _ => rfl) rfl rfl (.inr rfl) nofun
  · rw [hdrift]
    exact Performs.fails (fun h => absurd h hreleased) hfailed hscope (.inr rfl) nofun

/-- What a query leaves of the phase and the identity is what validating an identity leaves. -/
theorem performs_query {call : Call} {accepted : Bool} (hquery : call.isQuery = true)
    (hphase : state'.currentPhase = (state.validateIdentity identity).1.currentPhase)
    (hscope : state'.scope = (state.validateIdentity identity).1.scope) :
    Performs state call state' accepted := by
  have hlate : call.isLate = false := by
    unfold Call.isLate
    split
    · cases hquery
    · cases hquery
    · cases hquery
    · rfl
  have hother : ∀ bootstrap nowMs, call ≠ .beginAcquire bootstrap nowMs := by
    rintro _ _ rfl
    cases hquery
  obtain ⟨-, heq⟩ | ⟨failed, hdrift, hreleased, hfailed, hkept⟩ :=
    validateIdentity_cases state identity
  · rw [heq] at hphase hscope
    exact Performs.stays (fun _ => hlate) hphase hscope (.inr hquery) hother
  · rw [hdrift] at hphase hscope
    exact Performs.fails (fun h => absurd h hreleased) (hphase.trans hfailed)
      (hscope.trans hkept) (.inr hquery) fun bootstrap nowMs h => absurd h (hother _ _)

theorem performs_admitCandidate (state : State) (identity : Identity) (actingActorGuid : UInt32)
    (classification : Admission) (survival movement : Bool) :
    Performs state (.admitCandidate identity actingActorGuid classification survival movement)
      (state.admitCandidate identity actingActorGuid classification survival movement).1
      (state.admitCandidate identity actingActorGuid classification survival movement).2 := by
  unfold State.admitCandidate
  split
  · exact Performs.stays (fun _ => rfl) rfl rfl (.inr rfl) nofun
  · dsimp only
    split
    · exact performs_query rfl rfl rfl
    · exact performs_query rfl rfl rfl

theorem performs_permitRouteAdvance (state : State) (identity : Identity)
    (prospectiveGeneration : UInt64) :
    Performs state (.permitRouteAdvance identity prospectiveGeneration)
      (state.permitRouteAdvance identity prospectiveGeneration).1
      (state.permitRouteAdvance identity prospectiveGeneration).2 := by
  unfold State.permitRouteAdvance
  split
  · exact Performs.stays (fun _ => rfl) rfl rfl (.inr rfl) nofun
  · next hhold =>
    dsimp only
    split
    · exact Performs.stays (fun _ => rfl) rfl rfl (.inr rfl) nofun
    · split
      · exact Performs.fails (fun h => absurd (.inr h) hhold) rfl rfl (.inr rfl) nofun
      · exact performs_query rfl rfl rfl

/-- Every call does one of these things. -/
theorem performs_perform (state : State) (call : Call) :
    Performs state call (state.perform call).1 (state.perform call).2 := by
  cases call with
  | beginAcquire bootstrap nowMs => exact performs_beginAcquire ..
  | completeAcquire identity nowMs => exact performs_completeAcquire ..
  | acknowledgeArm identity nowMs => exact performs_acknowledgeArm ..
  | observeCheckpointTerminal identity stage terminal identityPreserved nowMs =>
    exact performs_observeCheckpointTerminal ..
  | release identity nowMs => exact performs_release ..
  | admitCandidate identity actingActorGuid classification survival movement =>
    exact performs_admitCandidate ..
  | permitRouteAdvance identity prospectiveGeneration => exact performs_permitRouteAdvance ..
  | validateIdentity identity => exact performs_validateIdentity ..

/-! ### The record of a hold -/

/-- An accepted operation, with what it was given. -/
inductive Progress where
  | completed (identity : Identity)
  | armed (identity : Identity)
  | terminal (identity : Identity) (terminal identityPreserved : Bool)
  | released (identity : Identity)
  deriving DecidableEq, Repr

/-- What an operation is recorded as when it is accepted. -/
def Call.progress : Call → Option Progress
  | .completeAcquire identity _ => some (.completed identity)
  | .acknowledgeArm identity _ => some (.armed identity)
  | .observeCheckpointTerminal identity _ terminal identityPreserved _ =>
    some (.terminal identity terminal identityPreserved)
  | .release identity _ => some (.released identity)
  | _ => none

/-- A hold with the phases and the accepted operations since the last accepted `BeginAcquire`. -/
structure Recorded where
  state : State := {}
  phases : List Phase := [.disabled]
  progress : List Progress := []
  deriving DecidableEq, Repr

/-- A call, recorded. -/
def Recorded.step (hold : Recorded) (call : Call) : Recorded :=
  let result := hold.state.perform call
  match call, result.2 with
  | .beginAcquire .., true =>
    { state := result.1, phases := [result.1.currentPhase], progress := [] }
  | call, accepted =>
    { state := result.1
      phases := hold.phases ++ [result.1.currentPhase]
      progress := if accepted then hold.progress ++ call.progress.toList else hold.progress }

/-- The identity that an entry of the record completed acquisition with. -/
def Progress.acquired : Progress → Option Identity
  | .completed identity => some identity
  | _ => none

/-- Whether an entry of the record is a release. -/
def Progress.isReleased : Progress → Bool
  | .released _ => true
  | _ => false

/-- The identity that completed acquisition, while it is not released. -/
def Recorded.pending (hold : Recorded) : Option Identity :=
  if hold.progress.any Progress.isReleased then none
  else hold.progress.findSome? Progress.acquired

/-- The next phase on the way to the release. -/
def Phase.next : Phase → Option Phase
  | .acquiring => some .held
  | .held => some .armed
  | .armed => some .checkpointTerminal
  | .checkpointTerminal => some .released
  | _ => none

/-- One way: forward, or to `Failed` from any phase but `Released`. -/
def Moves (before after : Phase) : Prop :=
  before = after ∨ before.next = some after ∨ before ≠ .released ∧ after = .failed

/-- The route is denied: no advance, and of the ordinary candidates only survival that does not
move the held actor. -/
structure Denies (state : State) (heldActor : UInt32) : Prop where
  advance : ∀ identity prospectiveGeneration,
    (state.permitRouteAdvance identity prospectiveGeneration).2 = false
  ordinary : ∀ identity actingActorGuid survival movement,
    (state.admitCandidate identity actingActorGuid .ordinary survival movement).2 = true →
      survival = true ∧ ¬(movement = true ∧ actingActorGuid = heldActor)
  policy : ∀ identity actingActorGuid candidate metadata,
    classifyCandidate candidate metadata state = .ordinary →
      (admissionPolicy state identity actingActorGuid candidate metadata).2 = "" →
        candidate.actionPriority = .survival ∧
          ¬(conflicts candidate.requiredResources movementResource = true ∧
            actingActorGuid = heldActor)

/-- What the protocol promises of a recorded hold. -/
structure Sound (hold : Recorded) : Prop where
  oneWay : hold.phases.IsChain Moves
  released : hold.state.currentPhase = .released →
    ∃ identity, hold.progress =
      [.completed identity, .armed identity, .terminal identity true true, .released identity]
  denies : ∀ identity, hold.pending = some identity → Denies hold.state identity.actorGuid

/-- The calls that keep the promise: no operation on a released hold but another release, and no
invalid bootstrap that replaces a released or a pending hold. -/
def Keeps (hold : Recorded) (call : Call) : Prop :=
  match call with
  | .beginAcquire bootstrap _ =>
    bootstrap.validBootstrap = true ∨ hold.state.currentPhase ≠ .released ∧
      (hold.pending = none ∨ hold.state.scope.attemptId = bootstrap.attemptId)
  | call => call.isLate = true → hold.state.currentPhase ≠ .released

variable {hold : Recorded} {call : Call} {accepted : Bool}

/-! ### Recording -/

theorem step_begins {bootstrap : Identity} {nowMs : UInt64}
    (h : hold.state.perform (.beginAcquire bootstrap nowMs) = (state', true)) :
    hold.step (.beginAcquire bootstrap nowMs) =
      { state := state', phases := [state'.currentPhase], progress := [] } := by
  unfold Recorded.step
  rw [h]

/-- An accepted operation is recorded. -/
theorem step_accepted {entry : Progress} (h : hold.state.perform call = (state', true))
    (hentry : call.progress = some entry) :
    hold.step call =
      { state := state'
        phases := hold.phases ++ [state'.currentPhase]
        progress := hold.progress ++ [entry] } := by
  unfold Recorded.step
  rw [h]
  cases call with
  | completeAcquire identity nowMs => cases hentry; rfl
  | acknowledgeArm identity nowMs => cases hentry; rfl
  | observeCheckpointTerminal identity stage terminal identityPreserved nowMs =>
    cases hentry; rfl
  | release identity nowMs => cases hentry; rfl
  | _ => cases hentry

/-- Anything else leaves the record as it is. -/
theorem step_quiet (h : hold.state.perform call = (state', accepted))
    (hquiet : accepted = false ∨ call.isQuery = true) :
    hold.step call =
      { state := state'
        phases := hold.phases ++ [state'.currentPhase]
        progress := hold.progress } := by
  unfold Recorded.step
  rw [h]
  cases accepted with
  | false => cases call <;> rfl
  | true =>
    have hquery : call.isQuery = true := hquiet.resolve_left (by decide)
    cases call with
    | admitCandidate => simp [Call.progress]
    | permitRouteAdvance => simp [Call.progress]
    | validateIdentity => simp [Call.progress]
    | _ => cases hquery

/-! ### Denial -/

theorem holding_iff (state : State) :
    state.holding = true ↔ state.currentPhase ≠ .disabled ∧ state.currentPhase ≠ .released := by
  unfold State.holding
  cases state.currentPhase <;> decide

/-- A hold past its acquisition denies the route. -/
theorem denies_of_scope (hphase : state.currentPhase ≠ .disabled)
    (hacquiring : state.currentPhase ≠ .acquiring) (hreleased : state.currentPhase ≠ .released) :
    Denies state state.scope.actorGuid := by
  have hordinary : ∀ identity actingActorGuid survival movement,
      (state.admitCandidate identity actingActorGuid .ordinary survival movement).2 = true →
        survival = true ∧ ¬(movement = true ∧ actingActorGuid = state.scope.actorGuid) := by
    intro identity actingActorGuid survival movement
    have hscope : (state.validateIdentity identity).1.scope = state.scope := by
      obtain ⟨-, heq⟩ | ⟨failed, heq, -, -, hscope⟩ := validateIdentity_cases state identity
      · rw [heq]
      · rw [heq]
        exact hscope
    have hholding : state.holding = true := (holding_iff state).mpr ⟨hphase, hreleased⟩
    unfold State.admitCandidate
    rw [hholding]
    intro hadmitted
    simp only [Bool.not_true, Bool.false_eq_true, if_false, hscope] at hadmitted
    split at hadmitted
    · next hsafe => simpa [Decidable.imp_iff_not_or] using hsafe
    · cases hadmitted
  refine ⟨?_, hordinary, ?_⟩
  · intro identity prospectiveGeneration
    unfold State.permitRouteAdvance
    rw [if_neg (not_or.mpr ⟨hphase, hreleased⟩)]
    dsimp only
    rw [if_neg fun h => hacquiring h.1]
  · intro identity actingActorGuid candidate metadata hclass hadmitted
    unfold admissionPolicy at hadmitted
    rw [hclass] at hadmitted
    dsimp only at hadmitted
    split at hadmitted
    · next hadmit => simpa using hordinary _ _ _ _ hadmit
    · exact absurd hadmitted (by decide)

/-- A hold that has forgotten its identity admits a survival move of the held actor. -/
theorem not_denies_of_forgotten {heldActor : UInt32} (hphase : state.currentPhase = .failed)
    (hscope : state.scope = {}) (hactor : heldActor ≠ 0) : ¬Denies state heldActor := by
  intro hdenies
  have hadmitted : (state.admitCandidate {} heldActor .ordinary true true).2 = true := by
    unfold State.admitCandidate State.holding State.validateIdentity
    simp [hphase, hscope, hactor]
  exact (hdenies.ordinary {} heldActor true true hadmitted).2 ⟨rfl, rfl⟩

/-! ### The invariant -/

/-- The record of a released hold. -/
def path (identity : Identity) : List Progress :=
  [.completed identity, .armed identity, .terminal identity true true, .released identity]

/-- How many operations a hold has accepted in a phase. -/
def Phase.operations : Phase → Option Nat
  | .disabled | .acquiring => some 0
  | .held => some 1
  | .armed => some 2
  | .checkpointTerminal => some 3
  | .released => some 4
  | .failed => none

/-- What the calls that keep the promise preserve. -/
structure Inv (hold : Recorded) : Prop where
  oneWay : hold.phases.IsChain Moves
  last : hold.phases.getLast? = some hold.state.currentPhase
  recorded : ∀ operations, hold.state.currentPhase.operations = some operations →
    hold.progress = (path hold.state.scope).take operations
  scope : ∀ identity, hold.pending = some identity → hold.state.scope = identity
  valid : ∀ identity, Progress.completed identity ∈ hold.progress → identity.validBootstrap = true

theorem completed_mem_of_pending (h : hold.pending = some identity) :
    Progress.completed identity ∈ hold.progress := by
  unfold Recorded.pending at h
  split at h
  · cases h
  · obtain ⟨entry, hmem, hentry⟩ := exists_of_findSome?_eq_some h
    cases entry with
    | completed other =>
      cases hentry
      exact hmem
    | _ => cases hentry

/-- A pending hold is in a phase past its acquisition and before its release. -/
theorem Inv.phase_of_pending (h : Inv hold) (hpending : hold.pending = some identity) :
    hold.state.currentPhase ≠ .disabled ∧ hold.state.currentPhase ≠ .acquiring ∧
      hold.state.currentPhase ≠ .released := by
  have hnone : ∀ operations, hold.state.currentPhase.operations = some operations →
      operations = 0 ∨ operations = 4 → hold.pending = none := by
    intro operations hoperations hcount
    unfold Recorded.pending
    rw [h.recorded operations hoperations]
    cases hcount with
    | inl hzero =>
      subst hzero
      rfl
    | inr hfour =>
      subst hfour
      rfl
  refine ⟨fun heq => ?_, fun heq => ?_, fun heq => ?_⟩
  · exact nomatch hpending.symm.trans (hnone 0 (by rw [heq]; rfl) (Or.inl rfl))
  · exact nomatch hpending.symm.trans (hnone 0 (by rw [heq]; rfl) (Or.inl rfl))
  · exact nomatch hpending.symm.trans (hnone 4 (by rw [heq]; rfl) (Or.inr rfl))

theorem Inv.sound (h : Inv hold) : Sound hold := by
  refine ⟨h.oneWay, fun hreleased => ?_, fun identity hpending => ?_⟩
  · exact ⟨hold.state.scope, h.recorded 4 (by rw [hreleased]; rfl)⟩
  · obtain ⟨hdisabled, hacquiring, hreleased⟩ := h.phase_of_pending hpending
    rw [← h.scope identity hpending]
    exact denies_of_scope hdisabled hacquiring hreleased

theorem Inv.holding_of_pending (h : Inv hold) (hpending : hold.pending ≠ none) :
    hold.state.holding = true := by
  obtain ⟨identity, hidentity⟩ := Option.ne_none_iff_exists'.mp hpending
  obtain ⟨hdisabled, -, hreleased⟩ := h.phase_of_pending hidentity
  exact (holding_iff hold.state).mpr ⟨hdisabled, hreleased⟩

theorem inv_init : Inv {} := by
  refine ⟨isChain_singleton _, rfl, ?_, nofun, nofun⟩
  intro operations hoperations
  cases hoperations
  rfl

/-- A phase is appended to a record of phases that ends in the one before. -/
theorem Inv.moves (h : Inv hold) {after : Phase} (hmoves : Moves hold.state.currentPhase after) :
    (hold.phases ++ [after]).IsChain Moves := by
  rw [isChain_append]
  refine ⟨h.oneWay, isChain_singleton _, ?_⟩
  intro before hbefore next hnext
  rw [h.last] at hbefore
  cases hbefore
  cases hnext
  exact hmoves

/-- An accepted operation takes the hold one phase further. -/
theorem Inv.advance (h : Inv hold) {entry : Progress} {operations : Nat} {after : Phase}
    (hbefore : hold.state.currentPhase.operations = some operations)
    (hnext : hold.state.currentPhase.next = some after)
    (hafter : after.operations = some (operations + 1)) (hphase : state'.currentPhase = after)
    (hscope : operations = 0 ∨ state'.scope = hold.state.scope)
    (hentry : (path state'.scope)[operations]? = some entry)
    (hvalid : operations = 0 → state'.scope.validBootstrap = true) :
    Inv { state := state'
          phases := hold.phases ++ [state'.currentPhase]
          progress := hold.progress ++ [entry] } := by
  have hprogress : hold.progress = (path state'.scope).take operations := by
    rw [h.recorded operations hbefore]
    cases hscope with
    | inl hzero =>
      subst hzero
      rfl
    | inr heq => rw [heq]
  have hrecorded : hold.progress ++ [entry] = (path state'.scope).take (operations + 1) := by
    rw [hprogress, take_add_one, hentry]
    rfl
  have hmem : ∀ identity, Progress.completed identity ∈ hold.progress ++ [entry] →
      identity = state'.scope := by
    intro identity hmem
    rw [hrecorded] at hmem
    have hpath := mem_of_mem_take hmem
    simpa [path] using hpath
  refine ⟨?_, by simp, ?_, ?_, ?_⟩
  · rw [hphase]
    exact h.moves (.inr (.inl hnext))
  · intro count hcount
    rw [hphase, hafter] at hcount
    cases hcount
    exact hrecorded
  · intro identity hpending
    exact (hmem identity (completed_mem_of_pending hpending)).symm
  · intro identity hcompleted
    rcases hmem identity hcompleted with rfl
    cases operations with
    | zero => exact hvalid rfl
    | succ operations =>
      refine h.valid _ ?_
      rw [hprogress]
      exact mem_cons_self

/-- A call that is not recorded keeps the invariant where it keeps the identity. -/
theorem Inv.quiet (h : Inv hold)
    (hmoves : Moves hold.state.currentPhase state'.currentPhase)
    (hphase : state'.currentPhase = .failed ∨ state'.currentPhase = hold.state.currentPhase ∧
      state'.scope = hold.state.scope)
    (hscope : hold.pending = none ∨ state'.scope = hold.state.scope) :
    Inv { state := state'
          phases := hold.phases ++ [state'.currentPhase]
          progress := hold.progress } := by
  refine ⟨h.moves hmoves, by simp, ?_, ?_, h.valid⟩
  · intro operations hoperations
    cases hphase with
    | inl hfailed =>
      rw [hfailed] at hoperations
      cases hoperations
    | inr hsame =>
      rw [hsame.1] at hoperations
      rw [h.recorded operations hoperations, hsame.2]
  · intro identity hpending
    have hbefore : hold.pending = some identity := hpending
    cases hscope with
    | inl hnone => exact nomatch hbefore.symm.trans hnone
    | inr hsame => exact hsame.trans (h.scope identity hbefore)

theorem inv_step (h : Inv hold) (hkeeps : Keeps hold call) : Inv (hold.step call) := by
  obtain ⟨state', accepted, hresult⟩ : ∃ state' accepted,
      hold.state.perform call = (state', accepted) := ⟨_, _, rfl⟩
  have hperforms := performs_perform hold.state call
  rw [hresult] at hperforms
  cases hperforms with
  | begins hvalid hphase hscope =>
    rw [step_begins hresult]
    refine ⟨isChain_singleton _, rfl, ?_, nofun, nofun⟩
    intro operations hoperations
    rw [hphase] at hoperations
    cases hoperations
    rfl
  | resets hnew hinvalid hphase hscope =>
    rw [step_quiet hresult (Or.inl rfl)]
    obtain hvalid | ⟨hreleased, hpending⟩ := hkeeps
    · exact nomatch hinvalid.symm.trans hvalid
    · refine h.quiet (.inr (.inr ⟨hreleased, hphase⟩)) (.inl hphase) (.inl ?_)
      -- Otherwise it was a duplicate of the pending hold.
      by_contra hsome
      refine hnew ⟨?_, hpending.resolve_left hsome⟩
      exact h.holding_of_pending hsome
  | completes hbefore hvalid hphase hscope =>
    rw [step_accepted hresult rfl]
    refine h.advance (show _ = some 0 by rw [hbefore]; rfl) (by rw [hbefore]; rfl) rfl hphase
      (Or.inl rfl) (by rw [hscope]; rfl) fun _ => ?_
    rw [hscope]
    unfold Identity.validComplete at hvalid
    simp only [Bool.and_eq_true] at hvalid
    exact hvalid.1.1.1.1.1
  | arms hbefore hphase hscope =>
    rw [step_accepted hresult rfl]
    exact h.advance (show _ = some 1 by rw [hbefore]; rfl) (by rw [hbefore]; rfl) rfl hphase
      (Or.inr hscope) (by rw [hscope]; rfl) nofun
  | observes hbefore hphase hscope =>
    rw [step_accepted hresult rfl]
    exact h.advance (show _ = some 2 by rw [hbefore]; rfl) (by rw [hbefore]; rfl) rfl hphase
      (Or.inr hscope) (by rw [hscope]; rfl) nofun
  | releases hbefore hphase hscope =>
    rw [step_accepted hresult rfl]
    exact h.advance (show _ = some 3 by rw [hbefore]; rfl) (by rw [hbefore]; rfl) rfl hphase
      (Or.inr hscope) (by rw [hscope]; rfl) nofun
  | fails hlate hphase hscope hquiet hduplicate =>
    rw [step_quiet hresult hquiet]
    refine h.quiet (.inr (.inr ⟨fun hreleased => ?_, hphase⟩)) (.inl hphase) (.inr hscope)
    have hcall := hlate hreleased
    unfold Keeps at hkeeps
    cases call with
    | beginAcquire bootstrap nowMs => cases hcall
    | _ => exact hkeeps hcall hreleased
  | stays hlate hphase hscope hquiet hother =>
    rw [step_quiet hresult hquiet]
    exact h.quiet (.inl hphase.symm) (.inr ⟨hphase, hscope⟩) (.inr hscope)

/-- A call that does not keep the promise breaks it. -/
theorem not_sound_step (h : Inv hold) (hkeeps : ¬Keeps hold call) : ¬Sound (hold.step call) := by
  intro hsound
  obtain ⟨state', accepted, hresult⟩ : ∃ state' accepted,
      hold.state.perform call = (state', accepted) := ⟨_, _, rfl⟩
  have hperforms := performs_perform hold.state call
  rw [hresult] at hperforms
  -- The phase of a released hold does not become `Failed`.
  have hreleased : hold.state.currentPhase = .released → state'.currentPhase = .failed →
      (hold.step call).phases = hold.phases ++ [state'.currentPhase] → False := by
    intro hreleased hfailed hphases
    have hchain := hsound.oneWay
    rw [hphases, isChain_append] at hchain
    have hmoves := hchain.2.2 _ h.last _ rfl
    rw [hreleased, hfailed] at hmoves
    obtain heq | heq | ⟨hne, -⟩ := hmoves
    · cases heq
    · cases heq
    · exact hne rfl
  cases hperforms with
  | begins hvalid hphase hscope => exact hkeeps (.inl hvalid)
  | resets hnew hinvalid hphase hscope =>
    have hstep := step_quiet hresult (.inl rfl)
    by_cases hlate : hold.state.currentPhase = .released
    · exact hreleased hlate hphase (by rw [hstep])
    · cases hpending : hold.pending with
      | none => exact hkeeps (.inr ⟨hlate, .inl hpending⟩)
      | some identity =>
        have hactor : identity.actorGuid ≠ 0 := by
          have hvalid := h.valid identity (completed_mem_of_pending hpending)
          unfold Identity.validBootstrap at hvalid
          simp only [Bool.and_eq_true, bne_iff_ne] at hvalid
          exact hvalid.1.1.1.2
        have hdenies := hsound.denies identity (by rw [hstep]; exact hpending)
        rw [hstep] at hdenies
        exact not_denies_of_forgotten hphase hscope hactor hdenies
  | fails hlate hphase hscope hquiet hduplicate =>
    have hstep := step_quiet hresult hquiet
    by_cases hbefore : hold.state.currentPhase = .released
    · exact hreleased hbefore hphase (by rw [hstep])
    · refine hkeeps ?_
      unfold Keeps
      cases call with
      | beginAcquire bootstrap nowMs =>
        exact .inr ⟨hbefore, .inr (hduplicate bootstrap nowMs rfl)⟩
      | _ => exact fun _ => hbefore
  | stays hlate hphase hscope hquiet hother =>
    refine hkeeps ?_
    unfold Keeps
    cases call with
    | beginAcquire bootstrap nowMs => exact absurd rfl (hother bootstrap nowMs)
    | _ =>
      intro hcall hbefore
      exact nomatch (hlate hbefore).symm.trans hcall
  | completes hbefore hvalid hphase hscope =>
    refine hkeeps fun _ hreleased => ?_
    exact nomatch hbefore.symm.trans hreleased
  | arms hbefore hphase hscope =>
    refine hkeeps fun _ hreleased => ?_
    exact nomatch hbefore.symm.trans hreleased
  | observes hbefore hphase hscope =>
    refine hkeeps fun _ hreleased => ?_
    exact nomatch hbefore.symm.trans hreleased
  | releases hbefore hphase hscope => exact hkeeps fun hcall => nomatch hcall

/-! ### Runs -/

/-- Every state of a run keeps the promise exactly when every call of the run does. -/
theorem route_hold_protocol (calls : List Call) :
    (∀ before, before <+: calls → Sound (StateMachine.run Recorded.step {} before)) ↔
      StateMachine.Admits Recorded.step Keeps {} calls := by
  apply StateMachine.run_prefixes_iff_of_strengthening inv_init
  · exact fun _ h => h.sound
  · exact fun _ _ h hkeeps => inv_step h hkeeps
  · exact fun _ _ h hkeeps => not_sound_step h hkeeps

/-- A complete identity. -/
def exampleIdentity : Identity :=
  { cohortId := "cohort"
    serverEpoch := 1
    attemptId := 1
    scenarioId := "magmaw"
    runtimeProfile := "normal10"
    routeManifestSha256 := "0000000000000000000000000000000000000000000000000000000000000000"
    routeGeneration := 1
    routeNodeId := "node"
    actorGuid := 7
    fixtureId := "fixture"
    sealSha256 := "0000000000000000000000000000000000000000000000000000000000000000"
    sourceCommit := "0000000000000000000000000000000000000000" }

/-- A second acknowledgement that arrives after the release turns the hold into a failed one. -/
theorem late_arm_reopens_released :
    ¬Sound (StateMachine.run Recorded.step {}
      [.beginAcquire exampleIdentity 1, .completeAcquire exampleIdentity 2,
        .acknowledgeArm exampleIdentity 3,
        .observeCheckpointTerminal exampleIdentity "completed" true true 4,
        .release exampleIdentity 5, .acknowledgeArm exampleIdentity 6]) := by
  intro hsound
  have hphases : (StateMachine.run Recorded.step {}
      [.beginAcquire exampleIdentity 1, .completeAcquire exampleIdentity 2,
        .acknowledgeArm exampleIdentity 3,
        .observeCheckpointTerminal exampleIdentity "completed" true true 4,
        .release exampleIdentity 5, .acknowledgeArm exampleIdentity 6]).phases =
      [.acquiring, .held, .armed, .checkpointTerminal, .released, .failed] := by
    decide +kernel
  have hchain := hsound.oneWay
  rw [hphases] at hchain
  simp [Moves, Phase.next] at hchain

end TrinityCore.Bots.ControllerRouteHold
