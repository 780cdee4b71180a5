import Mathlib.Algebra.Ring.Nat
import Mathlib.Data.List.Basic
import TrinityCore.Lib.StateMachine

/-!
# Members on a route transport

`DecideTransportStep` of `BotValidationRouteNativeLogic.h` with the state it keeps for one
member, and what its verdict of a stranded member rests on.
-/

namespace TrinityCore.Bots.RouteNative

open List

/-- `TransportStep`. -/
inductive TransportStep where
  | hold
  | stop
  | moveToWait
  | moveToBoard
  | board
  | holdAboard
  | moveToDisembark
  | leave
  | moveToExit
  | done
  | blocked
  | fail
  deriving DecidableEq, Repr

/-- The fields of a `TransportContract` that the step reads. Of the wait and disembark points it
asks whether they are valid. -/
structure TransportContract where
  exitStopFrame : Int32 := -1
  hasExitLevel : Bool := false
  waitPointValid : Bool := false
  disembarkPointValid : Bool := false
  arrivalToleranceYards : Float32 := 1.5
  maxSubmissions : UInt32 := 5

/-- `TransportContract::HasExit`. -/
def TransportContract.hasExit (contract : TransportContract) : Bool :=
  decide (0 ≤ contract.exitStopFrame) || contract.hasExitLevel

/-- `TransportMemberState`, without the text of its last reason. -/
structure TransportMemberState where
  boarded : Bool := false
  left : Bool := false
  boardSubmissions : UInt32 := 0
  leaveSubmissions : UInt32 := 0
  failedSubmissions : UInt32 := 0
  platformFloorSeen : Bool := false
  floorlessObservations : UInt32 := 0
  floorlessSinceMs : UInt64 := 0
  deriving DecidableEq, Repr

/-- `UnboundedRestMs`. -/
def unboundedRestMs : UInt64 := 18446744073709551615

/-- `BoardWindowMarginMs`. -/
def boardWindowMarginMs : UInt64 := 300

/-- `StrandedConfirmObservations`. -/
def strandedConfirmObservations : UInt32 := 3

/-- `StrandedConfirmMs`. -/
def strandedConfirmMs : UInt64 := 400

/-- `TransportMemberObservation`. -/
structure TransportMemberObservation where
  alive : Bool := false
  transportPresent : Bool := false
  transportAmbiguous : Bool := false
  readyToBoard : Bool := false
  atExit : Bool := false
  onThisTransport : Bool := false
  onOtherTransportOrVehicle : Bool := false
  moving : Bool := false
  falling : Bool := false
  nowMs : UInt64 := 0
  staticFloorUnderfoot : Bool := false
  transportFloorUnderfoot : Bool := false
  restRemainingMs : UInt64 := 0
  travelToBoardMs : UInt64 := 0
  distanceToWait : Float32 := 0
  distanceToBoard : Float32 := 0
  distanceToDisembark : Float32 := 0
  distanceToExit : Float32 := 0

/-- `TransportDecision`. -/
structure TransportDecision where
  step : TransportStep := .hold
  reason : String := ""
  deriving DecidableEq, Repr

namespace TransportMemberObservation

variable (observation : TransportMemberObservation)

/-- The local `onPlatformFloor`. -/
def onPlatformFloor : Bool :=
  observation.transportFloorUnderfoot && !observation.staticFloorUnderfoot

/-- The local `floorless`. -/
def floorless : Bool :=
  !observation.staticFloorUnderfoot && !observation.transportFloorUnderfoot

/-- The local `settled`. -/
def settled : Bool :=
  !observation.moving && !observation.falling

end TransportMemberObservation

/-- The returns before the member's floor is looked at, past the check that it is alive. -/
def transportUnavailable (contract : TransportContract)
    (observation : TransportMemberObservation) (state : TransportMemberState) :
    Option TransportDecision :=
  if observation.transportAmbiguous then some ⟨.blocked, "transport_ambiguous"⟩
  else if ¬observation.transportPresent then some ⟨.blocked, "transport_missing"⟩
  else if observation.onOtherTransportOrVehicle ∧ ¬observation.onThisTransport then
    some ⟨.blocked, "transport_member_on_other_transport"⟩
  else if contract.maxSubmissions ≤ state.failedSubmissions then
    some ⟨.fail, "transport_submissions_exhausted"⟩
  else none

/-- The decision for a passenger. -/
def decideAboard (contract : TransportContract) (observation : TransportMemberObservation) :
    TransportDecision :=
  if ¬contract.hasExit then ⟨.done, "transport_boarded"⟩
  else if ¬observation.atExit then ⟨.holdAboard, "transport_riding"⟩
  else if ¬observation.staticFloorUnderfoot ∧ ¬contract.disembarkPointValid then
    ⟨.blocked, "transport_exit_no_static_floor"⟩
  else if ¬observation.staticFloorUnderfoot ∧
      contract.arrivalToleranceYards < observation.distanceToDisembark then
    ⟨.moveToDisembark, "transport_disembark_path"⟩
  else if observation.moving then ⟨.holdAboard, "transport_exit_settling"⟩
  else if ¬observation.staticFloorUnderfoot then
    ⟨.blocked, "transport_disembark_no_static_floor"⟩
  else ⟨.leave, "transport_exit_level_reached"⟩

/-- The floor that is remembered of a member who is no passenger. -/
def platformFloorSeenAfter (observation : TransportMemberObservation)
    (state : TransportMemberState) : Bool :=
  if observation.staticFloorUnderfoot then false
  else if observation.onPlatformFloor then true
  else state.platformFloorSeen

/-- The decision to board, for a member whose floor is under its feet. -/
def decideBoarding (contract : TransportContract) (observation : TransportMemberObservation) :
    TransportDecision :=
  let windowShort : Bool := observation.restRemainingMs != unboundedRestMs &&
    decide (observation.restRemainingMs < observation.travelToBoardMs + boardWindowMarginMs)
  let awayFromWait : Bool := contract.waitPointValid &&
    decide (contract.arrivalToleranceYards < observation.distanceToWait)
  if observation.onPlatformFloor then
    if observation.moving then ⟨.stop, "transport_board_stop_on_platform"⟩
    else ⟨.board, "transport_board_ready"⟩
  else if ¬observation.readyToBoard then
    if awayFromWait then ⟨.moveToWait, "transport_wait_path"⟩
    else if observation.moving then ⟨.stop, "transport_not_ready_stop"⟩
    else ⟨.hold, "transport_waiting"⟩
  else if observation.distanceToBoard ≤ contract.arrivalToleranceYards then
    ⟨.blocked, "transport_board_point_not_on_platform_floor"⟩
  else if windowShort then
    if observation.moving then
      if awayFromWait then ⟨.moveToWait, "transport_rest_window_short_retreat"⟩
      else ⟨.stop, "transport_rest_window_short_stop"⟩
    else ⟨.hold, "transport_rest_window_too_short"⟩
  else ⟨.moveToBoard, "transport_board_path"⟩

/-- The count after one more observation without a floor. -/
def countFloorless (observation : TransportMemberObservation) (state : TransportMemberState) :
    TransportMemberState :=
  { state with
    floorlessSinceMs :=
      if state.floorlessObservations = 0 then observation.nowMs else state.floorlessSinceMs
    floorlessObservations := state.floorlessObservations + 1 }

/-- The count given up. -/
def clearFloorless (state : TransportMemberState) : TransportMemberState :=
  { state with floorlessObservations := 0, floorlessSinceMs := 0 }

/-- The decision for a member that is no passenger, with its floor remembered in `state`. -/
def decideAshore (contract : TransportContract) (observation : TransportMemberObservation)
    (state : TransportMemberState) : TransportDecision × TransportMemberState :=
  if observation.floorless ∧ observation.settled ∧ state.platformFloorSeen then
    let counted := countFloorless observation state
    if strandedConfirmObservations ≤ counted.floorlessObservations ∧
        counted.floorlessSinceMs + strandedConfirmMs ≤ observation.nowMs then
      (⟨.fail, "transport_member_stranded_without_floor"⟩, counted)
    else (⟨.hold, "transport_member_floor_lost_confirming"⟩, counted)
  else if observation.floorless ∧ observation.settled then
    (⟨.hold, "transport_member_floor_unverified"⟩, clearFloorless state)
  else if state.boarded ∧ contract.hasExit then
    (if observation.distanceToExit ≤ contract.arrivalToleranceYards then
        ⟨.done, "transport_exit_reached"⟩
      else ⟨.moveToExit, "transport_exit_path"⟩,
      { clearFloorless state with left := true })
  else (decideBoarding contract observation, clearFloorless state)

/-- `DecideTransportStep`. -/
def decideTransportStep (contract : TransportContract) (observation : TransportMemberObservation)
    (state : TransportMemberState) : TransportDecision × TransportMemberState :=
  if ¬observation.alive then (⟨.hold, "transport_member_dead"⟩, state)
  else
    let state := if observation.onThisTransport then { state with boarded := true } else state
    match transportUnavailable contract observation state with
    | some decision => (decision, state)
    | none =>
      if observation.onThisTransport then
        (decideAboard contract observation, clearFloorless state)
      else
        decideAshore contract observation
          { state with platformFloorSeen := platformFloorSeenAfter observation state }

/-- The verdict that a member is stranded. -/
def strandedDecision : TransportDecision where
  step := .fail
  reason := "transport_member_stranded_without_floor"

/-! ### What one step does -/

variable {contract : TransportContract} {observation : TransportMemberObservation}
  {state : TransportMemberState}

/-- The step returns before it looks at the member's floor. -/
def passedOver (contract : TransportContract) (observation : TransportMemberObservation)
    (state : TransportMemberState) : Bool :=
  !observation.alive || (transportUnavailable contract observation state).isSome

/-- Alive, no passenger, stationary and without any floor: what the stranded check counts. -/
def TransportMemberObservation.floorLost (observation : TransportMemberObservation) : Bool :=
  observation.alive && !observation.onThisTransport && observation.settled &&
    observation.floorless

theorem transportUnavailable_ne_stranded :
    transportUnavailable contract observation state ≠ some strandedDecision := by
  rw [transportUnavailable, strandedDecision]
  split_ifs <;> simp

theorem decideAboard_ne_stranded : decideAboard contract observation ≠ strandedDecision := by
  rw [decideAboard, strandedDecision]
  split_ifs <;> simp

theorem decideBoarding_ne_stranded :
    decideBoarding contract observation ≠ strandedDecision := by
  simp only [decideBoarding, strandedDecision]
  split_ifs <;> simp

/-- A member ashore is either counted, and stranded only by the full count, or its count ends. -/
theorem decideAshore_cases (contract : TransportContract)
    (observation : TransportMemberObservation) (state : TransportMemberState) :
    (observation.floorless = true ∧ observation.settled = true ∧ state.platformFloorSeen = true ∧
      (decideAshore contract observation state).2 = countFloorless observation state ∧
      ((decideAshore contract observation state).1 = strandedDecision →
        strandedConfirmObservations ≤ state.floorlessObservations + 1 ∧
        (countFloorless observation state).floorlessSinceMs + strandedConfirmMs ≤
          observation.nowMs)) ∨
    ((decideAshore contract observation state).1 ≠ strandedDecision ∧
      (decideAshore contract observation state).2.platformFloorSeen = state.platformFloorSeen ∧
      (decideAshore contract observation state).2.floorlessObservations = 0) := by
  by_cases hcounts :
      observation.floorless = true ∧ observation.settled = true ∧ state.platformFloorSeen = true
  · refine .inl ⟨hcounts.1, hcounts.2.1, hcounts.2.2, ?_⟩
    rw [decideAshore, if_pos hcounts]
    dsimp only
    split
    case isTrue hconfirmed => exact ⟨rfl, fun _ => hconfirmed⟩
    case isFalse => exact ⟨rfl, fun h => by simp [strandedDecision] at h⟩
  · right
    rw [decideAshore, if_neg hcounts]
    split
    · simp [strandedDecision, clearFloorless]
    · split
      · refine ⟨?_, rfl, rfl⟩
        rw [strandedDecision]
        dsimp only
        split_ifs <;> simp
      · exact ⟨decideBoarding_ne_stranded, rfl, rfl⟩

/-- Everything one step does to what is remembered of the floor, and when it calls a member
stranded. -/
theorem decideTransportStep_cases (contract : TransportContract)
    (observation : TransportMemberObservation) (state : TransportMemberState) :
    let result := decideTransportStep contract observation state
    (passedOver contract observation state = true ∧ result.1 ≠ strandedDecision ∧
      result.2.platformFloorSeen = state.platformFloorSeen ∧
      result.2.floorlessObservations = state.floorlessObservations ∧
      result.2.floorlessSinceMs = state.floorlessSinceMs) ∨
    (passedOver contract observation state = false ∧ observation.onThisTransport = true ∧
      result.1 ≠ strandedDecision ∧ result.2.platformFloorSeen = state.platformFloorSeen ∧
      result.2.floorlessObservations = 0) ∨
    (passedOver contract observation state = false ∧ observation.floorLost = true ∧
      state.platformFloorSeen = true ∧ result.2 = countFloorless observation state ∧
      (result.1 = strandedDecision →
        strandedConfirmObservations ≤ state.floorlessObservations + 1 ∧
        (countFloorless observation state).floorlessSinceMs + strandedConfirmMs ≤
          observation.nowMs)) ∨
    (passedOver contract observation state = false ∧ observation.onThisTransport = false ∧
      result.1 ≠ strandedDecision ∧
      result.2.platformFloorSeen = platformFloorSeenAfter observation state ∧
      result.2.floorlessObservations = 0) := by
  intro result
  by_cases halive : observation.alive = true
  · have hboarded : transportUnavailable contract observation
        (if observation.onThisTransport = true then { state with boarded := true } else state) =
          transportUnavailable contract observation state := by
      split_ifs <;> rfl
    cases hunavailable : transportUnavailable contract observation state with
    | some decision =>
      left
      have hne : decision ≠ strandedDecision := fun h =>
        transportUnavailable_ne_stranded (hunavailable.trans (congrArg some h))
      simp only [result, decideTransportStep, halive, not_true_eq_false, ↓reduceIte, hboarded,
        hunavailable]
      refine ⟨by simp [passedOver, hunavailable], hne, ?_⟩
      split_ifs <;> exact ⟨rfl, rfl, rfl⟩
    | none =>
      right
      have hpassed : passedOver contract observation state = false := by
        simp [passedOver, halive, hunavailable]
      by_cases haboard : observation.onThisTransport = true
      · left
        simp only [haboard, ↓reduceIte] at hboarded
        simp only [result, decideTransportStep, halive, not_true_eq_false, ↓reduceIte, haboard,
          hboarded, hunavailable]
        exact ⟨hpassed, trivial, decideAboard_ne_stranded, rfl, rfl⟩
      · right
        rw [Bool.not_eq_true] at haboard
        have hresult : result = decideAshore contract observation
            { state with platformFloorSeen := platformFloorSeenAfter observation state } := by
          simp [result, decideTransportStep, halive, haboard, hunavailable]
        rcases decideAshore_cases contract observation
            { state with platformFloorSeen := platformFloorSeenAfter observation state } with
          ⟨hfloorless, hsettled, hseen, hstate, hstranded⟩ | ⟨hne, hseen, hcount⟩
        · left
          have hafter : platformFloorSeenAfter observation state = state.platformFloorSeen := by
            simp only [TransportMemberObservation.floorless, Bool.and_eq_true,
              Bool.not_eq_true'] at hfloorless
            simp [platformFloorSeenAfter, TransportMemberObservation.onPlatformFloor,
              hfloorless.1, hfloorless.2]
          rw [hafter] at hresult hseen hstate hstranded
          rw [hresult]
          refine ⟨hpassed, ?_, hseen, hstate, hstranded⟩
          simp [TransportMemberObservation.floorLost, halive, haboard, hsettled, hfloorless]
        · right
          rw [hresult]
          exact ⟨hpassed, haboard, hne, hseen, hcount⟩
  · left
    simp [result, decideTransportStep, passedOver, halive, strandedDecision]

/-! ### The observations of one member -/

/-- What happens to the state of one member: an observation is fed to the step, the outcome of a
submission is counted, or the completion check sees the member aboard. -/
inductive TransportEvent where
  | observed (observation : TransportMemberObservation)
  | boardCommitted
  | leaveCommitted
  | submissionFailed
  | seenAboard

/-- The state of one member with the observations that were fed to the step. -/
structure TransportRun where
  member : TransportMemberState := {}
  observations : List TransportMemberObservation := []

/-- One event. -/
def transportEvent (contract : TransportContract) (run : TransportRun) :
    TransportEvent → TransportRun
  | .observed observation =>
    { member := (decideTransportStep contract observation run.member).2
      observations := run.observations ++ [observation] }
  | .boardCommitted =>
    { run with member.boardSubmissions := run.member.boardSubmissions + 1 }
  | .leaveCommitted =>
    { run with member.leaveSubmissions := run.member.leaveSubmissions + 1 }
  | .submissionFailed =>
    { run with member.failedSubmissions := run.member.failedSubmissions + 1 }
  | .seenAboard => { run with member.boarded := true }

/-- The last observation with any floor underfoot. -/
def lastFloor (observations : List TransportMemberObservation) :
    Option TransportMemberObservation :=
  (observations.filter fun observation => !observation.floorless).getLast?

/-- Observations that end in an uninterrupted block without any floor, long and old enough, that
the platform's own floor came before. -/
def StrandedEvidence (observations : List TransportMemberObservation) : Prop :=
  ∃ before block, observations = before ++ block ∧
    strandedConfirmObservations.toNat ≤ block.length ∧
    (∀ observation ∈ block, observation.floorLost = true) ∧
    (∃ first ∈ block.head?, ∃ last ∈ block.getLast?,
      first.nowMs.toNat + strandedConfirmMs.toNat ≤ last.nowMs.toNat) ∧
    ∃ floor ∈ lastFloor before, floor.onPlatformFloor = true

/-- The step does not lose what the observation shows: a running count is not passed over by an
observation that interrupts it, a static floor is not passed over once the platform was seen, and
a count does not start at the clock's end. -/
def Unbroken (contract : TransportContract) (run : TransportRun) : TransportEvent → Prop
  | .observed observation =>
    (passedOver contract observation run.member = true →
      run.member.floorlessObservations ≠ 0 → observation.floorLost = true) ∧
    (passedOver contract observation run.member = true ∨ observation.onThisTransport = true →
      observation.staticFloorUnderfoot = true → run.member.platformFloorSeen = false) ∧
    (passedOver contract observation run.member = false → observation.floorLost = true →
      run.member.platformFloorSeen = true → run.member.floorlessObservations = 0 →
      observation.nowMs.toNat + strandedConfirmMs.toNat < 2 ^ 64)
  | _ => True

theorem floorless_of_floorLost (h : observation.floorLost = true) :
    observation.floorless = true := by
  simp only [TransportMemberObservation.floorLost, Bool.and_eq_true] at h
  exact h.2

/-- Observations without a floor leave the last floor alone. -/
theorem lastFloor_append {before block : List TransportMemberObservation}
    (h : ∀ observation ∈ block, observation.floorless = true) :
    lastFloor (before ++ block) = lastFloor before := by
  have hnone : (block.filter fun observation => !observation.floorless) = [] := by
    rw [filter_eq_nil_iff]
    intro observation hmem
    simp [h observation hmem]
  rw [lastFloor, filter_append, hnone, append_nil, lastFloor]

theorem lastFloor_concat (observations : List TransportMemberObservation)
    (observation : TransportMemberObservation) :
    lastFloor (observations ++ [observation]) =
      if observation.floorless then lastFloor observations else some observation := by
  split
  case isTrue h => exact lastFloor_append (by simpa using h)
  case isFalse h =>
    rw [Bool.not_eq_true] at h
    simp [lastFloor, filter_append, h]

/-- The count stands for a block of observations without a floor, its start for the first one. -/
structure CountsBlock (member : TransportMemberState)
    (block : List TransportMemberObservation) : Prop where
  lost : ∀ observation ∈ block, observation.floorLost = true
  count : member.floorlessObservations.toNat ≤ block.length
  since : member.floorlessObservations ≠ 0 →
    ∃ first ∈ block.head?, first.nowMs = member.floorlessSinceMs ∧
      first.nowMs.toNat + strandedConfirmMs.toNat < 2 ^ 64

/-- The state of a member is what its observations show. -/
structure Tracked (run : TransportRun) : Prop where
  platform : run.member.platformFloorSeen = true →
    ∃ floor ∈ lastFloor run.observations, floor.onPlatformFloor = true
  block : ∃ before block, run.observations = before ++ block ∧ CountsBlock run.member block

theorem tracked_default : Tracked {} where
  platform := by simp
  block := ⟨[], [], rfl, by simp, by simp, by simp⟩

/-- Without a count no block is needed. -/
theorem countsBlock_nil {member : TransportMemberState} (h : member.floorlessObservations = 0) :
    CountsBlock member [] where
  lost := by simp
  count := by simp [h]
  since := fun hcount => absurd h hcount

/-- A block grows by an observation without a floor, counted or not. -/
theorem CountsBlock.concat {member member' : TransportMemberState}
    {block : List TransportMemberObservation} (h : CountsBlock member block)
    (hlost : observation.floorLost = true) (hrunning : member.floorlessObservations ≠ 0)
    (hcount : member'.floorlessObservations.toNat ≤ member.floorlessObservations.toNat + 1)
    (hsince : member'.floorlessSinceMs = member.floorlessSinceMs) :
    CountsBlock member' (block ++ [observation]) where
  lost := by
    intro other hother
    rcases mem_append.mp hother with hother | hother
    · exact h.lost other hother
    · exact mem_singleton.mp hother ▸ hlost
  count := by
    have hblock := h.count
    rw [length_append, length_singleton]
    omega
  since := by
    intro _
    obtain ⟨first, hfirst, htime⟩ := h.since hrunning
    rw [hsince]
    refine ⟨first, ?_, htime⟩
    rw [Option.mem_def] at hfirst ⊢
    rw [head?_append, hfirst]
    rfl

/-- A counted observation adds one at most; the counter may wrap. -/
theorem toNat_succ_le (count : UInt32) : (count + 1).toNat ≤ count.toNat + 1 := by
  rw [UInt32.toNat_add]
  exact Nat.mod_le _ _

/-- A count that starts takes the observation as its block. -/
theorem countsBlock_singleton {member : TransportMemberState}
    (hlost : observation.floorLost = true) (hzero : member.floorlessObservations = 0)
    (htime : observation.nowMs.toNat + strandedConfirmMs.toNat < 2 ^ 64) :
    CountsBlock (countFloorless observation member) [observation] where
  lost := by simpa using hlost
  count := by simp [countFloorless, hzero]
  since := by
    intro _
    exact ⟨observation, rfl, by simp [countFloorless, hzero], htime⟩

variable {run : TransportRun}

/-- An observation that the step passes over, or of a passenger, does not turn the remembered
floor wrong. -/
theorem platform_of_unrecorded (h : Tracked run)
    (hstatic : observation.staticFloorUnderfoot = true → run.member.platformFloorSeen = false)
    (hseen : run.member.platformFloorSeen = true) :
    ∃ floor ∈ lastFloor (run.observations ++ [observation]), floor.onPlatformFloor = true := by
  rw [lastFloor_concat]
  split
  case isTrue => exact h.platform hseen
  case isFalse hfloor =>
    have hnostatic : observation.staticFloorUnderfoot = false := by
      by_contra hne
      rw [Bool.not_eq_false] at hne
      simp [hstatic hne] at hseen
    refine ⟨observation, rfl, ?_⟩
    simpa [TransportMemberObservation.onPlatformFloor, TransportMemberObservation.floorless,
      hnostatic] using hfloor

/-- An observation whose floor is recorded. -/
theorem platform_of_recorded (h : Tracked run)
    (hseen : platformFloorSeenAfter observation run.member = true) :
    ∃ floor ∈ lastFloor (run.observations ++ [observation]), floor.onPlatformFloor = true := by
  rw [lastFloor_concat]
  rw [platformFloorSeenAfter] at hseen
  split_ifs at hseen with hstatic hplatform
  · have hfloor : observation.floorless = false := by
      simp only [TransportMemberObservation.onPlatformFloor, Bool.and_eq_true] at hplatform
      simp [TransportMemberObservation.floorless, hplatform.1]
    simpa [hfloor] using hplatform
  · have hfloor : observation.floorless = true := by
      simp only [TransportMemberObservation.onPlatformFloor, Bool.and_eq_true,
        Bool.not_eq_true', not_and, Bool.not_eq_false] at hplatform
      simp only [TransportMemberObservation.floorless, Bool.and_eq_true, Bool.not_eq_true']
      exact ⟨by simpa using hstatic, by
        by_contra htransport
        exact hstatic (hplatform (by simpa using htransport))⟩
    simpa [hfloor] using h.platform hseen

/-- An observation keeps the state true to what was observed. -/
theorem Tracked.observed (h : Tracked run) (hok : Unbroken contract run (.observed observation)) :
    Tracked (transportEvent contract run (.observed observation)) := by
  obtain ⟨hinterrupts, hstatic, hclock⟩ := hok
  obtain ⟨before, block, hobservations, hblock⟩ := h.block
  have hall : run.observations ++ [observation] = before ++ (block ++ [observation]) := by
    rw [hobservations, append_assoc]
  rcases decideTransportStep_cases contract observation run.member with
    ⟨hpassed, -, hseen, hcount, hsince⟩ | ⟨hpassed, haboard, -, hseen, hcount⟩ |
    ⟨hpassed, hlost, hplatform, hstate, -⟩ | ⟨hpassed, hashore, -, hseen, hcount⟩
  · constructor
    case platform =>
      intro hafter
      exact platform_of_unrecorded h (hstatic (.inl hpassed)) (hseen ▸ hafter)
    case block =>
      by_cases hzero : run.member.floorlessObservations = 0
      · exact ⟨_, [], (append_nil _).symm, countsBlock_nil (hcount.trans hzero)⟩
      · refine ⟨before, _, hall, hblock.concat (hinterrupts hpassed hzero) hzero ?_ hsince⟩
        exact Nat.le_succ_of_le (Nat.le_of_eq (congrArg UInt32.toNat hcount))
  · constructor
    case platform =>
      intro hafter
      exact platform_of_unrecorded h (hstatic (.inr haboard)) (hseen ▸ hafter)
    case block => exact ⟨_, [], (append_nil _).symm, countsBlock_nil hcount⟩
  · constructor
    case platform =>
      intro _
      have hfloor : observation.floorless = true := floorless_of_floorLost hlost
      show ∃ floor ∈ lastFloor (run.observations ++ [observation]), _
      rw [lastFloor_concat, if_pos hfloor]
      exact h.platform hplatform
    case block =>
      by_cases hzero : run.member.floorlessObservations = 0
      · refine ⟨run.observations, [observation], rfl, ?_⟩
        simp only [transportEvent, hstate]
        exact countsBlock_singleton hlost hzero (hclock hpassed hlost hplatform hzero)
      · refine ⟨before, _, hall, ?_⟩
        simp only [transportEvent, hstate]
        exact hblock.concat hlost hzero (toNat_succ_le _) (by simp [countFloorless, hzero])
  · constructor
    case platform =>
      intro hafter
      exact platform_of_recorded h (hseen ▸ hafter)
    case block => exact ⟨_, [], (append_nil _).symm, countsBlock_nil hcount⟩

/-- Every event keeps the state true to what was observed. -/
theorem Tracked.transportEvent (h : Tracked run) {event : TransportEvent}
    (hok : Unbroken contract run event) : Tracked (transportEvent contract run event) := by
  cases event with
  | observed observation => exact h.observed hok
  | _ => exact ⟨h.platform, h.block.imp fun _ => Exists.imp fun _ ⟨heq, hb⟩ =>
      ⟨heq, hb.lost, hb.count, hb.since⟩⟩

theorem tracked_run {events : List TransportEvent}
    (hok : StateMachine.Admits (transportEvent contract) (Unbroken contract) {} events) :
    Tracked (StateMachine.run (transportEvent contract) {} events) :=
  StateMachine.run_invariant_of_admits tracked_default (fun _ _ h hstep => h.transportEvent hstep)
    events hok

/-- The verdict of one step, with its evidence in the state after it. -/
theorem Tracked.evidence (h : Tracked run) (hok : Unbroken contract run (.observed observation))
    (hstranded : (decideTransportStep contract observation run.member).1 = strandedDecision) :
    StrandedEvidence (run.observations ++ [observation]) := by
  have hafter := h.observed hok
  rcases decideTransportStep_cases contract observation run.member with
    ⟨-, hne, -⟩ | ⟨-, -, hne, -⟩ | ⟨-, hlost, hplatform, hstate, hconfirmed⟩ | ⟨-, -, hne, -⟩
  · exact absurd hstranded hne
  · exact absurd hstranded hne
  · obtain ⟨hcount, htime⟩ := hconfirmed hstranded
    obtain ⟨before, block, hall, hblock⟩ := hafter.block
    simp only [RouteNative.transportEvent, hstate] at hall hblock
    have hcounted : strandedConfirmObservations.toNat ≤
        (countFloorless observation run.member).floorlessObservations.toNat :=
      UInt32.le_iff_toNat_le.mp hcount
    have hlength := Nat.le_trans hcounted hblock.count
    have hrunning : (countFloorless observation run.member).floorlessObservations ≠ 0 := by
      intro hzero
      rw [hzero] at hcounted
      exact absurd hcounted (by decide)
    obtain ⟨first, hfirst, hsince, hclock⟩ := hblock.since hrunning
    refine ⟨before, block, hall, hlength, hblock.lost, ⟨first, hfirst, observation, ?_, ?_⟩, ?_⟩
    · have hnonempty : block ≠ [] := by
        rintro rfl
        simp at hfirst
      rw [Option.mem_def, ← getLast?_append_of_ne_nil before hnonempty, ← hall, getLast?_concat]
    · rw [← hsince, UInt64.le_iff_toNat_le, UInt64.toNat_add, Nat.mod_eq_of_lt hclock] at htime
      exact htime
    · have hlast : lastFloor before = lastFloor run.observations := by
        rw [← lastFloor_append fun other hother => floorless_of_floorLost (hblock.lost other hother),
          ← hall, lastFloor_append]
        simpa using floorless_of_floorLost hlost
      rw [hlast]
      exact h.platform hplatform
  · exact absurd hstranded hne

/-- A member is called stranded only after an uninterrupted block of observations without any
floor, long and old enough, with the platform's own surface as the floor before it: in every run
in which no observation is lost to the count. -/
theorem stranded_evidence (contract : TransportContract) (events : List TransportEvent)
    (observation : TransportMemberObservation)
    (hok : StateMachine.Admits (transportEvent contract) (Unbroken contract) {}
      (events ++ [.observed observation]))
    (hstranded : (decideTransportStep contract observation
      (StateMachine.run (transportEvent contract) {} events).member).1 = strandedDecision) :
    StrandedEvidence
      ((StateMachine.run (transportEvent contract) {} events).observations ++ [observation]) := by
  rw [StateMachine.admits_append] at hok
  exact (tracked_run hok.1).evidence hok.2.1 hstranded

/-- A stationary member on the platform of a present transport. -/
def platformObservation (nowMs : UInt64) : TransportMemberObservation where
  alive := true
  transportPresent := true
  transportFloorUnderfoot := true
  nowMs := nowMs

/-- The same member without a floor. -/
def floorlessObservation (nowMs : UInt64) : TransportMemberObservation :=
  { platformObservation nowMs with transportFloorUnderfoot := false }

/-- Three observations without a floor, over 400 ms, after the platform's floor. -/
theorem stranded_evidence_confirmed :
    (decideTransportStep {} (floorlessObservation 500)
      (StateMachine.run (transportEvent {}) {}
        [.observed (platformObservation 0), .observed (floorlessObservation 100),
          .observed (floorlessObservation 300)]).member).1 = strandedDecision ∧
    StrandedEvidence [platformObservation 0, floorlessObservation 100, floorlessObservation 300,
      floorlessObservation 500] := by
  constructor
  · decide
  · apply stranded_evidence {} [.observed (platformObservation 0),
      .observed (floorlessObservation 100), .observed (floorlessObservation 300)]
    · exact ⟨⟨by decide, by decide, by decide⟩, ⟨by decide, by decide, by decide⟩,
        ⟨by decide, by decide, by decide⟩, ⟨by decide, by decide, by decide⟩, trivial⟩
    · decide

/-- The last observations of the evidence are all without a floor. -/
theorem StrandedEvidence.floorLost_of_mem_drop {observations : List TransportMemberObservation}
    (h : StrandedEvidence observations) {observation : TransportMemberObservation}
    (hmem : observation ∈
      observations.drop (observations.length - strandedConfirmObservations.toNat)) :
    observation.floorLost = true := by
  obtain ⟨before, block, rfl, hlength, hlost, -⟩ := h
  apply hlost
  have hsplit : (before ++ block).length - strandedConfirmObservations.toNat =
      before.length + (block.length - strandedConfirmObservations.toNat) := by
    rw [length_append]
    omega
  rw [hsplit, drop_length_add_append] at hmem
  exact mem_of_mem_drop hmem

/-- A walking member on static ground, observed while the transport is ambiguous. -/
def ambiguousObservation (nowMs : UInt64) : TransportMemberObservation where
  alive := true
  transportPresent := true
  transportAmbiguous := true
  moving := true
  staticFloorUnderfoot := true
  nowMs := nowMs

/-- The count goes on across an observation of a walk on static ground. -/
theorem stranded_despite_interruption :
    ¬ ∀ (contract : TransportContract) (events : List TransportEvent)
        (observation : TransportMemberObservation),
      (decideTransportStep contract observation
        (StateMachine.run (transportEvent contract) {} events).member).1 = strandedDecision →
      StrandedEvidence
        ((StateMachine.run (transportEvent contract) {} events).observations ++
          [observation]) := by
  intro h
  have hevidence := h {} [.observed (platformObservation 0), .observed (floorlessObservation 100),
    .observed (floorlessObservation 200), .observed (ambiguousObservation 300)]
    (floorlessObservation 600) (by decide)
  have hlost : (ambiguousObservation 300).floorLost = true := by
    apply hevidence.floorLost_of_mem_drop
    exact mem_cons_of_mem _ (mem_cons_self ..)
  exact absurd hlost (by decide)

end TrinityCore.Bots.RouteNative
