import Mathlib.Tactic.NormNum
import TrinityCore.Entities.ObjectGuid
import TrinityCore.Lib.StateMachine

/-!
# Parasite hazard intents

`MagmawParasiteHazardState` of `BotMagmawLaneTransition.h`: one bot's escape from a parasite, kept
until its destination is reached, the pack is far, or the native path to it is rejected for good.
A rejected endpoint is retired until the actor or the danger has moved. Coordinates are exact
rationals, and distances are compared by their squares.
-/

namespace TrinityCore.Magmaw.ParasiteHazard

/-- `Vector3`. -/
structure Vector3 where
  x : ℚ := 0
  y : ℚ := 0
  z : ℚ := 0
  deriving DecidableEq, Repr

/-- The square of `Distance2d`. -/
def distance2dSquared (left right : Vector3) : ℚ :=
  (left.x - right.x) * (left.x - right.x) + (left.y - right.y) * (left.y - right.y)

/-- `Distance2d(left, right) < bound`. -/
def closerThan (left right : Vector3) (bound : ℚ) : Bool :=
  decide (0 < bound) && decide (distance2dSquared left right < bound * bound)

/-- `Distance2d(left, right) <= bound`. -/
def withinDistance (left right : Vector3) (bound : ℚ) : Bool :=
  decide (0 ≤ bound) && decide (distance2dSquared left right ≤ bound * bound)

/-- What a board shows of an actor. -/
structure ActorSnapshot where
  alive : Bool
  entry : UInt32
  position : Vector3
  deriving DecidableEq, Repr

/-- The actors of a board. -/
structure HazardBoard where
  hostiles : List ActorSnapshot := []
  summons : List ActorSnapshot := []
  deriving DecidableEq, Repr

/-- `MagmawParasiteHazardState` within one scope and actor. -/
structure MagmawParasiteHazardState where
  actorGuid : ObjectGuid
  dangerGuid : ObjectGuid := 0
  dangerPosition : Vector3 := {}
  dangerPositionAvailable : Bool := false
  actorPosition : Vector3 := {}
  actorPositionAvailable : Bool := false
  intentId : UInt64 := 0
  destination : Vector3 := {}
  active : Bool := false
  rejectedDestination : Vector3 := {}
  rejectedActorPosition : Vector3 := {}
  rejectedDangerPosition : Vector3 := {}
  rejected : Bool := false
  rejectedGeometryAvailable : Bool := false
  deriving DecidableEq, Repr

namespace MagmawParasiteHazardState

/-- `0.001f`. -/
def pointTolerance : ℚ := 8589935 / 8589934592

/-- `GeometryChangeTolerance`. -/
def geometryChangeTolerance : ℚ := 1 / 4

/-- `SamePoint`. -/
def samePoint (left right : Vector3) : Bool :=
  decide (|left.x - right.x| ≤ pointTolerance) && decide (|left.y - right.y| ≤ pointTolerance) &&
    decide (|left.z - right.z| ≤ pointTolerance)

/-- `GeometryChanged`. -/
def geometryChanged (current rejected : Vector3) : Bool :=
  !withinDistance current rejected geometryChangeTolerance ||
    decide (geometryChangeTolerance < |current.z - rejected.z|)

/-- `IsPermanentNativeRejection`. -/
def isPermanentNativeRejection (reason : String) : Bool :=
  reason == "route_destination_endpoint_mismatch" ||
    reason == "route_destination_unreachable" ||
    reason == "route_destination_partial_path" ||
    reason == "route_destination_missing_mmap"

variable (state : MagmawParasiteHazardState)

/-- `ObserveNativeProgress`. -/
def observeNativeProgress (board : HazardBoard)
    (position : Vector3) (tolerance safeClearance : ℚ) : MagmawParasiteHazardState :=
  if !state.active then state
  else
    let inspect (actors : List ActorSnapshot) : Bool := actors.any fun actor =>
      actor.alive && (actor.entry == 41806 || actor.entry == 42321) &&
        closerThan position actor.position safeClearance
    let parasiteStillUnsafe := inspect board.hostiles || inspect board.summons
    if !parasiteStillUnsafe || withinDistance position state.destination tolerance then
      { state with active := false }
    else state

/-- The retired endpoint that the state remembers is the one asked for. -/
def retires (dangerPosition actorPosition destination : Vector3) : Bool :=
  state.rejected && samePoint destination state.rejectedDestination &&
    (!state.rejectedGeometryAvailable ||
      (!geometryChanged actorPosition state.rejectedActorPosition &&
        !geometryChanged dangerPosition state.rejectedDangerPosition))

/-- `++IntentId`, which is never 0. -/
def nextIntentId (intentId : UInt64) : UInt64 :=
  if intentId + 1 = 0 then intentId + 1 + 1 else intentId + 1

/-- `Begin`. -/
def begin (danger : ObjectGuid) (dangerPosition actorPosition
    destination : Vector3) : MagmawParasiteHazardState :=
  if state.active then state
  else if state.retires dangerPosition actorPosition destination then state
  else { state with
    intentId := nextIntentId state.intentId
    dangerGuid := danger
    dangerPosition := dangerPosition
    dangerPositionAvailable := true
    actorPosition := actorPosition
    actorPositionAvailable := true
    destination := destination
    active := true
    rejected := false
    rejectedGeometryAvailable := false }

/-- `Begin` without an actor position. -/
def beginWithoutActor (danger : ObjectGuid)
    (dangerPosition destination : Vector3) : MagmawParasiteHazardState :=
  { state.begin danger dangerPosition {} destination with actorPositionAvailable := false }

/-- `Begin` without positions. -/
def beginWithoutGeometry (danger : ObjectGuid)
    (destination : Vector3) : MagmawParasiteHazardState :=
  { state.begin danger {} {} destination with
    dangerPositionAvailable := false
    actorPositionAvailable := false }

/-- Whether `ObserveTerminalNativeRejection` returns `true`. -/
def acceptsRejection (actor : ObjectGuid) (intentId : UInt64)
    (destination : Vector3) (reason : String) : Bool :=
  isPermanentNativeRejection reason && state.active && state.actorGuid == actor &&
    state.intentId == intentId && samePoint state.destination destination

/-- `ObserveTerminalNativeRejection`. -/
def observeTerminalNativeRejection (actor : ObjectGuid)
    (intentId : UInt64) (destination : Vector3) (reason : String) : MagmawParasiteHazardState :=
  if state.acceptsRejection actor intentId destination reason then
    { state with
      rejectedDestination := state.destination
      rejectedActorPosition := state.actorPosition
      rejectedDangerPosition := state.dangerPosition
      rejected := true
      rejectedGeometryAvailable := state.actorPositionAvailable && state.dangerPositionAvailable
      active := false }
  else state

end MagmawParasiteHazardState

/-- What is called on the hazard state of a bot. -/
inductive HazardEvent where
  | begin (danger : ObjectGuid) (dangerPosition actorPosition destination : Vector3)
  | beginWithoutActor (danger : ObjectGuid) (dangerPosition destination : Vector3)
  | beginWithoutGeometry (danger : ObjectGuid) (destination : Vector3)
  | observeNativeProgress (board : HazardBoard) (position : Vector3)
      (tolerance safeClearance : ℚ)
  | observeTerminalNativeRejection (actor : ObjectGuid) (intentId : UInt64)
      (destination : Vector3) (reason : String)
  deriving DecidableEq, Repr

/-- What a `Begin` asks for; positions that an overload lacks are `{}`. -/
structure HazardRequest where
  dangerPosition : Vector3
  actorPosition : Vector3
  destination : Vector3
  deriving DecidableEq, Repr

/-- The request of an event that is a `Begin`. -/
def HazardEvent.request : HazardEvent → Option HazardRequest
  | .begin _ dangerPosition actorPosition destination =>
    some ⟨dangerPosition, actorPosition, destination⟩
  | .beginWithoutActor _ dangerPosition destination => some ⟨dangerPosition, {}, destination⟩
  | .beginWithoutGeometry _ destination => some ⟨{}, {}, destination⟩
  | _ => none

/-- An accepted rejection: of which destination, and where its intent was begun. -/
structure Rejection where
  destination : Vector3
  actorPosition : Vector3
  dangerPosition : Vector3
  geometryAvailable : Bool
  deriving DecidableEq, Repr

/-- A request for the destination of a rejection while neither position has changed. -/
def Rejection.Covers (rejection : Rejection) (request : HazardRequest) : Prop :=
  MagmawParasiteHazardState.samePoint request.destination rejection.destination = true ∧
    MagmawParasiteHazardState.geometryChanged request.actorPosition rejection.actorPosition
      = false ∧
    MagmawParasiteHazardState.geometryChanged request.dangerPosition rejection.dangerPosition
      = false

instance (rejection : Rejection) (request : HazardRequest) :
    Decidable (rejection.Covers request) := by
  unfold Rejection.Covers
  infer_instance

/-- A run of one bot's hazard state, with the rejections that were accepted, the latest first, and
the latest again while no intent was begun after it. -/
structure HazardRun where
  state : MagmawParasiteHazardState
  rejections : List Rejection := []
  standing : Option Rejection := none
  deriving DecidableEq, Repr

variable (state : MagmawParasiteHazardState)

namespace HazardRun

open MagmawParasiteHazardState

variable (state : MagmawParasiteHazardState)

/-- The state after an event. -/
def nextState : HazardEvent → MagmawParasiteHazardState
  | .begin danger dangerPosition actorPosition destination =>
    state.begin danger dangerPosition actorPosition destination
  | .beginWithoutActor danger dangerPosition destination =>
    state.beginWithoutActor danger dangerPosition destination
  | .beginWithoutGeometry danger destination => state.beginWithoutGeometry danger destination
  | .observeNativeProgress board position tolerance safeClearance =>
    state.observeNativeProgress board position tolerance safeClearance
  | .observeTerminalNativeRejection actor intentId destination reason =>
    state.observeTerminalNativeRejection actor intentId destination reason

/-- The rejection that an event makes the state accept. -/
def accepted : HazardEvent → Option Rejection
  | .observeTerminalNativeRejection actor intentId destination reason =>
    if state.acceptsRejection actor intentId destination reason then
      some ⟨state.destination, state.actorPosition, state.dangerPosition,
        state.actorPositionAvailable && state.dangerPositionAvailable⟩
    else none
  | _ => none

/-- An event starts an intent. -/
def starts (event : HazardEvent) : Bool :=
  !state.active && (nextState state event).active

/-- The run after an event. -/
def step (run : HazardRun) (event : HazardEvent) : HazardRun where
  state := nextState run.state event
  rejections := (accepted run.state event).toList ++ run.rejections
  standing :=
    if starts run.state event then none
    else (accepted run.state event).or run.standing

/-- A bot that has not begun anything. -/
def start (actor : ObjectGuid) : HazardRun := { state := { actorGuid := actor } }

/-- While an intent is active a `Begin` changes nothing, and no `Begin` starts an intent for an
endpoint that was retired with both positions available. -/
structure Sound (run : HazardRun) (event : HazardEvent) : Prop where
  keeps : event.request.isSome → run.state.active = true → (run.step event).state = run.state
  refuses : ∀ rejection ∈ run.rejections, rejection.geometryAvailable = true →
    ∀ request ∈ event.request, rejection.Covers request → starts run.state event = false

/-- The rejection that a state remembers. -/
def remembered : Option Rejection :=
  if state.rejected then
    some ⟨state.rejectedDestination, state.rejectedActorPosition, state.rejectedDangerPosition,
      state.rejectedGeometryAvailable⟩
  else none

/-- A rejection by which the request is refused: without its positions it is one for good. -/
def Forbids (rejection : Rejection) (request : HazardRequest) : Prop :=
  samePoint request.destination rejection.destination = true ∧
    (rejection.geometryAvailable = true →
      geometryChanged request.actorPosition rejection.actorPosition = false ∧
        geometryChanged request.dangerPosition rejection.dangerPosition = false)

/-- An overload that lacks a position comes only to an active intent that lacks it as well, and a
request for a retired endpoint only while the latest rejection stands and forbids it. -/
structure Fits (run : HazardRun) (event : HazardEvent) : Prop where
  lacks : run.state.active = true →
    match event with
    | .beginWithoutActor _ _ _ => run.state.actorPositionAvailable = false
    | .beginWithoutGeometry _ _ =>
      run.state.dangerPositionAvailable = false ∧ run.state.actorPositionAvailable = false
    | _ => True
  stands : run.state.active = false → ∀ rejection ∈ run.rejections,
    rejection.geometryAvailable = true → ∀ request ∈ event.request, rejection.Covers request →
      ∃ latest ∈ run.standing, Forbids latest request

theorem retires_iff (request : HazardRequest) :
    state.retires request.dangerPosition request.actorPosition request.destination = true ↔
      ∃ latest ∈ remembered state, Forbids latest request := by
  unfold retires remembered Forbids
  cases state.rejected <;> cases state.rejectedGeometryAvailable <;> simp

theorem active_begin (danger : ObjectGuid) (dangerPosition actorPosition destination : Vector3) :
    (state.begin danger dangerPosition actorPosition destination).active =
      (state.active || !state.retires dangerPosition actorPosition destination) := by
  unfold begin
  split
  · next hactive => rw [hactive, Bool.true_or]
  · next hactive =>
    rw [Bool.eq_false_iff.mpr hactive, Bool.false_or]
    split
    · next hretires => rw [hretires, Bool.eq_false_iff.mpr hactive]; rfl
    · next hretires => rw [Bool.eq_false_iff.mpr hretires]; rfl

/-- A request starts an intent unless one is active or it is refused. -/
theorem starts_eq {event : HazardEvent} {request : HazardRequest}
    (hrequest : event.request = some request) (state : MagmawParasiteHazardState) :
    starts state event = (!state.active &&
      !state.retires request.dangerPosition request.actorPosition request.destination) := by
  unfold starts
  cases event with
  | observeNativeProgress board position tolerance safeClearance => nomatch hrequest
  | observeTerminalNativeRejection actor intentId destination reason => nomatch hrequest
  | _ =>
    cases hrequest
    unfold nextState
    first
      | rw [active_begin]
      | show (!state.active && (state.begin _ _ _ _).active) = _
        rw [active_begin]
    cases state.active <;> rfl

theorem keeps_iff (run : HazardRun) (event : HazardEvent) (hactive : run.state.active = true) :
    (event.request.isSome → (run.step event).state = run.state) ↔
      match event with
      | .beginWithoutActor _ _ _ => run.state.actorPositionAvailable = false
      | .beginWithoutGeometry _ _ =>
        run.state.dangerPositionAvailable = false ∧ run.state.actorPositionAvailable = false
      | _ => True := by
  have hbegin : ∀ danger dangerPosition actorPosition destination,
      run.state.begin danger dangerPosition actorPosition destination = run.state :=
    fun _ _ _ _ => if_pos hactive
  cases event with
  | begin danger dangerPosition actorPosition destination =>
    exact iff_true_intro fun _ => hbegin _ _ _ _
  | beginWithoutActor danger dangerPosition destination =>
    simp only [step, nextState, beginWithoutActor, hbegin, HazardEvent.request]
    generalize run.state = state
    cases state
    simp [eq_comm]
  | beginWithoutGeometry danger destination =>
    simp only [step, nextState, beginWithoutGeometry, hbegin, HazardEvent.request]
    generalize run.state = state
    cases state
    simp [eq_comm]
  | observeNativeProgress board position tolerance safeClearance =>
    exact iff_true_intro fun hsome => nomatch hsome
  | observeTerminalNativeRejection actor intentId destination reason =>
    exact iff_true_intro fun hsome => nomatch hsome

/-- The state remembers the rejection that stands. -/
def Remembers (run : HazardRun) : Prop := run.standing = remembered run.state

theorem sound_step_iff {run : HazardRun} (h : Remembers run) (event : HazardEvent) :
    Sound run event ↔ Fits run event := by
  have hstarts : ∀ request ∈ event.request, (starts run.state event = false ↔
      run.state.active = true ∨ ∃ latest ∈ run.standing, Forbids latest request) := by
    intro request hrequest
    rw [starts_eq hrequest, h, ← retires_iff]
    cases run.state.active <;> simp
  constructor
  · rintro ⟨hkeeps, hrefuses⟩
    refine ⟨fun hactive => (keeps_iff run event hactive).mp fun hsome => hkeeps hsome hactive, ?_⟩
    intro hactive rejection hmem havailable request hrequest hcovers
    have hfalse := hrefuses rejection hmem havailable request hrequest hcovers
    exact ((hstarts request hrequest).mp hfalse).resolve_left (by simp [hactive])
  · rintro ⟨hlacks, hstands⟩
    refine ⟨fun hsome hactive => (keeps_iff run event hactive).mpr (hlacks hactive) hsome, ?_⟩
    intro rejection hmem havailable request hrequest hcovers
    rw [hstarts request hrequest]
    cases hactive : run.state.active with
    | true => exact .inl rfl
    | false => exact .inr (hstands hactive rejection hmem havailable request hrequest hcovers)

theorem remembered_begin (danger : ObjectGuid)
    (dangerPosition actorPosition destination : Vector3) :
    remembered (state.begin danger dangerPosition actorPosition destination) =
      if state.active || state.retires dangerPosition actorPosition destination then
        remembered state
      else none := by
  unfold begin
  split
  · next hactive => rw [hactive]; rfl
  · next hactive =>
    rw [Bool.eq_false_iff.mpr hactive, Bool.false_or]
    split <;> rfl

/-- A request leaves the rejection that stands, or starts an intent. -/
theorem Remembers.step_request {run : HazardRun} (h : Remembers run) {event : HazardEvent}
    {request : HazardRequest} (hrequest : event.request = some request)
    (hnext : ∃ danger, remembered (nextState run.state event) = remembered
      (run.state.begin danger request.dangerPosition request.actorPosition
        request.destination)) : Remembers (run.step event) := by
  obtain ⟨danger, hnext⟩ := hnext
  have hnone : accepted run.state event = none := by
    cases event <;> first | rfl | nomatch hrequest
  unfold Remembers HazardRun.step
  dsimp only
  rw [hnext, hnone, remembered_begin, starts_eq hrequest, Option.none_or, h]
  cases run.state.active <;> cases run.state.retires _ _ _ <;> rfl

theorem Remembers.step {run : HazardRun} (h : Remembers run) (event : HazardEvent) :
    Remembers (run.step event) := by
  cases event with
  | begin danger dangerPosition actorPosition destination =>
    exact h.step_request rfl ⟨danger, rfl⟩
  | beginWithoutActor danger dangerPosition destination => exact h.step_request rfl ⟨danger, rfl⟩
  | beginWithoutGeometry danger destination => exact h.step_request rfl ⟨danger, rfl⟩
  | observeNativeProgress board position tolerance safeClearance =>
    have hsame : remembered (run.state.observeNativeProgress board position tolerance
        safeClearance) = remembered run.state := by
      unfold observeNativeProgress
      split
      · rfl
      · dsimp only
        split <;> rfl
    have hstarts : starts run.state
        (.observeNativeProgress board position tolerance safeClearance) = false := by
      unfold starts nextState observeNativeProgress
      cases hactive : run.state.active with
      | true => rfl
      | false => simp [hactive]
    unfold Remembers HazardRun.step
    rw [hstarts]
    exact h.trans hsame.symm
  | observeTerminalNativeRejection actor intentId destination reason =>
    unfold Remembers HazardRun.step starts nextState accepted observeTerminalNativeRejection
    dsimp only
    split
    · simp [remembered]
    · cases run.state.active <;> exact h

/-- In a run every `Begin` leaves an active intent alone and no retired endpoint is begun again
exactly when all its steps fit. -/
theorem admits_sound_iff (actor : ObjectGuid) (events : List HazardEvent) :
    StateMachine.Admits step Sound (start actor) events ↔
      StateMachine.Admits step Fits (start actor) events :=
  StateMachine.admits_congr_of_invariant (show Remembers (start actor) from rfl)
    (fun _ event h => h.step event) (fun _ event h => sound_step_iff h event) events

/-- Two endpoints that cannot be reached, asked for in turn from the same place. -/
def alternating : List HazardEvent :=
  [.begin 7 {} {} { x := 10 },
    .observeTerminalNativeRejection 1 1 { x := 10 } "route_destination_unreachable",
    .begin 7 {} {} { y := 10 },
    .observeTerminalNativeRejection 1 2 { y := 10 } "route_destination_unreachable",
    .begin 7 {} {} { x := 10 }]

/-- The first endpoint is begun again, and an overload edits an active intent. -/
theorem not_admits_sound :
    ¬StateMachine.Admits step Sound (start 1) alternating ∧
      ¬StateMachine.Admits step Sound (start 1)
        [.begin 7 {} {} { x := 10 }, .beginWithoutActor 7 {} { x := 10 }] := by
  constructor
  · intro hall
    obtain ⟨-, -, -, -, hlast, -⟩ := hall
    have hfalse := hlast.refuses ⟨{ x := 10 }, {}, {}, true⟩ (by decide +kernel) rfl ⟨{}, {}, { x := 10 }⟩
      rfl (by decide +kernel)
    exact absurd hfalse (by decide +kernel)
  · rintro ⟨-, hlast, -⟩
    exact absurd (hlast.keeps rfl (by decide +kernel)) (by decide +kernel)

end HazardRun

end TrinityCore.Magmaw.ParasiteHazard
