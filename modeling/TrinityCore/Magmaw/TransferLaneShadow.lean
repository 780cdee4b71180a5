import TrinityCore.Lib.StateMachine
import TrinityCore.Magmaw.TransferLaneTask

/-!
# The transfer-lane task shadow

`BotMagmawTransferLaneTask.cpp`: each observation reconciles the episode and the tasks of
its two baiters. The facts and the raid plan keep what `Reconcile` reads of
`BotMagmawFacts.h` and `BotMagmawRaidPlan.h`.
-/

namespace TrinityCore.Magmaw.TransferLane

open Encounter

/-- `MagmawTruth`. -/
inductive Truth where
  | unknown
  | false
  | true
  deriving DecidableEq, Repr

/-- `MagmawGenerationKind`. -/
inductive GenerationKind where
  | unknown
  | observationEdge
  deriving DecidableEq, Repr

/-- What `Reconcile` reads of a `MagmawSignal`. -/
structure Signal where
  active : Truth := .unknown
  authoritative : Bool := false
  generationKind : GenerationKind := .unknown
  generationValue : UInt64 := 0

/-- What `Reconcile` reads of `MagmawFacts`; bosses by their position. -/
structure Facts where
  lifecycle : Scope := {}
  nativeEncounter : Option NativeEncounterLifecycle := none
  observationRevision : UInt64 := 0
  lifecycleAuthoritative : Bool := false
  bosses : List Vector3 := []
  pillar : Signal := {}

/-- `MagmawRaidAssignment`. -/
structure RaidAssignment where
  assigneeGuid : ObjectGuid := 0
  epoch : UInt64 := 0
  nonce : UInt64 := 0
  deriving DecidableEq, Repr

/-- What `Reconcile` reads of `MagmawRaidPlan`: the two baiter slots of its assignments. -/
structure RaidPlan where
  lifecycle : Scope := {}
  rosterGeneration : UInt64 := 0
  generation : UInt64 := 0
  authoritative : Bool := false
  fireMageBaiter : RaidAssignment := {}
  marksmanshipHunterBaiter : RaidAssignment := {}

/-- The arguments of `Reconcile` besides the current shadow. -/
structure Observation where
  facts : Facts := {}
  board : Blackboard := {}
  plan : RaidPlan := {}
  actors : List ActorObservation := []

/-- `MagmawTransferLaneTaskShadow`. -/
structure Shadow where
  sourceRevision : UInt64 := 0
  nextEpisodeGeneration : Nat := 0
  nextTaskGeneration : Nat := 0
  episode : Option Episode := none
  tasks : List Task := []
  retired : List RetiredTask := []

/-- `SameEncounter`: every field is compared. -/
def sameEncounter (left right : NativeEncounterLifecycle) : Bool :=
  left.id == right.id && left.bossId == right.bossId && left.bossEntry == right.bossEntry
    && left.bossGuid == right.bossGuid && left.state == right.state
    && left.serverEpoch == right.serverEpoch
    && left.instanceLifecycleEpoch == right.instanceLifecycleEpoch
    && left.attemptEpoch == right.attemptEpoch
    && left.encounterEpoch == right.encounterEpoch
    && left.authoritative == right.authoritative

/-- `SameEpisodeContract`. -/
def sameEpisodeContract (left right : Episode) : Bool :=
  left.id.lifecycle == right.id.lifecycle
    && sameEncounter left.id.encounter right.id.encounter
    && left.id.raidPlanGeneration == right.id.raidPlanGeneration
    && left.id.rosterGeneration == right.id.rosterGeneration
    && left.id.fireMageAssignmentGeneration == right.id.fireMageAssignmentGeneration
    && left.id.hunterAssignmentGeneration == right.id.hunterAssignmentGeneration
    && left.id.fireMageAssignmentNonce == right.id.fireMageAssignmentNonce
    && left.id.hunterAssignmentNonce == right.id.hunterAssignmentNonce
    && left.id.mechanicGeneration == right.id.mechanicGeneration
    && left.fireMageGuid == right.fireMageGuid
    && left.hunterGuid == right.hunterGuid

/-- `Assignment`: the slot, unless nobody is assigned to it. -/
def assigned (assignment : RaidAssignment) : Option RaidAssignment :=
  if assignment.assigneeGuid == 0 then none else some assignment

/-- `PlayerObservation`. -/
def playerObservation (board : Blackboard) (guid : ObjectGuid) : Option ActorSnapshot :=
  board.players.find? fun actor => actor.guid == guid && actor.kind == .player

/-- `FindActor`. -/
def findActor (actors : List ActorObservation) (guid : ObjectGuid) : Option ActorObservation :=
  actors.find? (·.guid == guid)

/-- `FindTask`. -/
def findTask (tasks : List Task) (guid : ObjectGuid) : Option Task :=
  tasks.find? (·.id.actorGuid == guid)

/-- Write through the pointer `FindTask` returns: the first task of the actor. -/
def modifyTask (guid : ObjectGuid) (f : Task → Task) : List Task → List Task
  | [] => []
  | task :: rest =>
    if task.id.actorGuid == guid then f task :: rest else task :: modifyTask guid f rest

/-- `RangedStackDistance`. -/
def rangedStackDistance : Float32 := 30

/-- `RangedStackLateralOffset`. -/
def rangedStackLateralOffset : Float32 := 18

section

variable (hypot : Float32 → Float32 → Float32)

/-- `Distance2d`. -/
def distance2d (left right : Vector3) : Float32 := hypot (left.x - right.x) (left.y - right.y)

/-- The geometry of `DesiredEpisode`: the lane's side and end, if the boss and the room side
are apart. -/
def desiredLane (owner boss roomSide : Vector3) (attemptId : UInt64) :
    Option (Direction × Vector3) :=
  let dx := roomSide.x - boss.x
  let dy := roomSide.y - boss.y
  let length := hypot dx dy
  if !length.isFinite || decide (length < 1) then none
  else
    let dx := dx / length
    let dy := dy / length
    let left : Vector3 :=
      { x := boss.x + dx * rangedStackDistance - dy * rangedStackLateralOffset
        y := boss.y + dy * rangedStackDistance + dx * rangedStackLateralOffset
        z := roomSide.z }
    let right : Vector3 :=
      { x := boss.x + dx * rangedStackDistance + dy * rangedStackLateralOffset
        y := boss.y + dy * rangedStackDistance - dx * rangedStackLateralOffset
        z := roomSide.z }
    let leftDistance := distance2d hypot owner left
    let rightDistance := distance2d hypot owner right
    let direction : Direction :=
      if leftDistance + arrivalTolerance < rightDistance then .right
      else if rightDistance + arrivalTolerance < leftDistance then .left
      else if attemptId % 2 == 1 then .right
      else .left
    some (direction, if direction == .left then left else right)

/-- `DesiredEpisode`; the episode generation is given when the episode begins. -/
def desiredEpisode (o : Observation) : Option Episode :=
  match o.facts.nativeEncounter, o.facts.bosses, o.board.navigationHints,
      assigned o.plan.fireMageBaiter, assigned o.plan.marksmanshipHunterBaiter with
  | some encounter, [boss], roomSide :: _, some mage, some hunter =>
    if !o.plan.authoritative || !o.facts.lifecycleAuthoritative
        || o.facts.observationRevision != o.board.revision
        || o.plan.lifecycle != o.facts.lifecycle
        || o.facts.pillar.active != .true || !o.facts.pillar.authoritative
        || o.facts.pillar.generationKind == .unknown
        || mage.assigneeGuid == hunter.assigneeGuid then none
    else
      match playerObservation o.board mage.assigneeGuid with
      | none => none
      | some owner =>
        if !owner.alive then none
        else
          match desiredLane hypot owner.position boss roomSide o.board.currentScope.attemptId with
          | none => none
          | some (direction, destination) =>
            some
              { id :=
                  { lifecycle := o.facts.lifecycle
                    encounter := encounter
                    raidPlanGeneration := o.plan.generation
                    rosterGeneration := o.plan.rosterGeneration
                    fireMageAssignmentGeneration := mage.epoch
                    hunterAssignmentGeneration := hunter.epoch
                    fireMageAssignmentNonce := mage.nonce
                    hunterAssignmentNonce := hunter.nonce
                    mechanicGeneration := o.facts.pillar.generationValue }
                fireMageGuid := mage.assigneeGuid
                hunterGuid := hunter.assigneeGuid
                direction := direction
                destination := destination
                createdAtRevision := o.board.revision }
  | _, _, _, _, _ => none

/-- The most recently retired tasks are kept. -/
def retiredCapacity : Nat := 16

/-- The record `RetireTask` makes: a task that is not terminal is aborted. -/
def retiredRecord (task : Task) (reason : Retirement) (revision : UInt64) : RetiredTask :=
  { task :=
      { task with
        state := if isTerminal task.state then task.state else .aborted
        suspension := .none }
    reason := reason
    retiredAtRevision := revision }

/-- `RetireTask`. -/
def retireTask (task : Task) (reason : Retirement) (revision : UInt64)
    (retired : List RetiredTask) : List RetiredTask :=
  let retired := retired ++ [retiredRecord task reason revision]
  retired.drop (retired.length - retiredCapacity)

/-- `EpisodeRetirement`. -/
def episodeRetirement (current desired : Episode) : Retirement :=
  if current.id.lifecycle != desired.id.lifecycle
      || !sameEncounter current.id.encounter desired.id.encounter then
    .encounterLifecycleChanged
  else if current.fireMageGuid != desired.fireMageGuid
      || current.hunterGuid != desired.hunterGuid
      || current.id.fireMageAssignmentGeneration != desired.id.fireMageAssignmentGeneration
      || current.id.hunterAssignmentGeneration != desired.id.hunterAssignmentGeneration
      || current.id.fireMageAssignmentNonce != desired.id.fireMageAssignmentNonce
      || current.id.hunterAssignmentNonce != desired.id.hunterAssignmentNonce then
    .assignmentChanged
  else if current.id.mechanicGeneration != desired.id.mechanicGeneration then
    .mechanicGenerationAdvanced
  else .raidPlanChanged

/-- `RetireEpisodeTasks`, and the episode is over. -/
def retireEpisode (s : Shadow) (reason : Retirement) (revision : UInt64) : Shadow :=
  { s with
    retired := s.tasks.foldl (fun retired task => retireTask task reason revision retired)
      s.retired
    tasks := []
    episode := none }

variable (episode : Episode)

/-- `lifecycleChanged` of `ReconcileEpisode`. -/
def lifecycleChanged (facts : Facts) : Bool :=
  episode.id.lifecycle != facts.lifecycle
    || (facts.lifecycleAuthoritative
      && match facts.nativeEncounter with
        | some encounter => !sameEncounter episode.id.encounter encounter
        | none => false)

/-- The generations `planChanged` of `ReconcileEpisode` compares. -/
def planChanged (plan : RaidPlan) : Bool :=
  episode.id.raidPlanGeneration != plan.generation
    || episode.id.rosterGeneration != plan.rosterGeneration

/-- `ReconcileEpisode` on the current episode: the reason to retire it, if there is one. -/
def retirementReason (desired : Option Episode) (facts : Facts)
    (plan : RaidPlan) : Option Retirement :=
  if lifecycleChanged episode facts then some .encounterLifecycleChanged
  else match desired with
    | some next =>
      if sameEpisodeContract episode next then none else some (episodeRetirement episode next)
    | none => if planChanged episode plan then some .raidPlanChanged else none

/-- The end of `ReconcileEpisode`: begin the desired episode when there is none. -/
def beginEpisode (s : Shadow) (desired : Option Episode) : Shadow :=
  match s.episode, desired with
  | none, some next =>
    { s with
      nextEpisodeGeneration := s.nextEpisodeGeneration + 1
      episode := some
        { next with id := { next.id with episodeGeneration := s.nextEpisodeGeneration + 1 } } }
  | _, _ => s

/-- `ReconcileEpisode`. Once an episode is retired the later tests find none. -/
def reconcileEpisode (s : Shadow) (desired : Option Episode) (o : Observation) : Shadow :=
  let s :=
    match s.episode with
    | none => s
    | some episode =>
      match retirementReason episode desired o.facts o.plan with
      | none => s
      | some reason => retireEpisode s reason o.board.revision
  beginEpisode s desired

/-- The first part of `ReconcileActorTask`: retire the task of an actor that died or began
another life. -/
def retireActorTask (s : Shadow) (guid : ObjectGuid) (actor : Option ActorObservation)
    (board : Blackboard) : Shadow :=
  match findTask s.tasks guid, actor with
  | some task, some actor =>
    let lifeChanged := actor.life.authoritative && task.id.actorLife != actor.life
    let died := !actor.alive
    if lifeChanged || died then
      { s with
        retired := retireTask task (if died then .actorDied else .actorLifeChanged)
          board.revision s.retired
        tasks := s.tasks.filter (·.id.actorGuid != guid) }
    else s
  | _, _ => s

/-- The task `ReconcileActorTask` creates for an observed actor. -/
def createdTask (guid : ObjectGuid) (generation : Nat)
    (actor : ActorObservation) (board : Blackboard) : Task :=
  let distance := distance2d hypot actor.position episode.destination
  { id := ⟨episode.id, guid, actor.life, generation⟩
    destination := episode.destination
    initialDistance := distance
    bestDistance := distance
    lastDistance := distance
    startedAtMs := board.observedAtMs
    lastProgressAtMs := board.observedAtMs
    lastObservedAtMs := board.observedAtMs
    progressRevision := board.revision }

/-- The second part of `ReconcileActorTask`: an observed living actor without task gets one. -/
def createActorTask (s : Shadow) (episode : Episode) (guid : ObjectGuid)
    (actor : Option ActorObservation) (board : Blackboard) : Shadow :=
  match findTask s.tasks guid, actor with
  | none, some actor =>
    if actor.alive && actor.life.authoritative && actor.positionObserved then
      { s with
        nextTaskGeneration := s.nextTaskGeneration + 1
        tasks := s.tasks ++
          [createdTask hypot episode guid (s.nextTaskGeneration + 1) actor board] }
    else s
  | _, _ => s

/-- What `ReconcileActorTask` does to the task of an actor that is not observed. -/
def suspendUnobserved (board : Blackboard) (task : Task) : Task :=
  { task with
    state := .suspended
    suspension := .observationUnavailable
    suspendedAtMs := if task.suspendedAtMs == 0 then board.observedAtMs else task.suspendedAtMs }

/-- The last part of `ReconcileActorTask`: advance or suspend the actor's task. -/
def advanceActorTask (s : Shadow) (guid : ObjectGuid) (actor : Option ActorObservation)
    (board : Blackboard) : Shadow :=
  { s with
    tasks := modifyTask guid
      (match actor with
        | some actor => fun task => observe hypot task actor board
        | none => suspendUnobserved board)
      s.tasks }

/-- `ReconcileActorTask`. -/
def reconcileActorTask (actors : List ActorObservation) (board : Blackboard)
    (s : Shadow) (guid : ObjectGuid) : Shadow :=
  let actor := findActor actors guid
  let s := retireActorTask s guid actor board
  let s := createActorTask hypot s episode guid actor board
  advanceActorTask hypot s guid actor board

/-- `Reconcile` on a revision not seen before. -/
def advanceShadow (s : Shadow) (o : Observation) : Shadow :=
  let s := { s with sourceRevision := o.facts.observationRevision }
  let s := reconcileEpisode s (desiredEpisode hypot o) o
  match s.episode with
  | none => s
  | some episode =>
    [episode.fireMageGuid, episode.hunterGuid].foldl
      (reconcileActorTask hypot episode o.actors o.board) s

/-- `Reconcile`: the current shadow, if there is one, is kept for its own revision. -/
def reconcile (current : Option Shadow) (o : Observation) : Shadow :=
  match current with
  | none => advanceShadow hypot {} o
  | some s =>
    if s.sourceRevision == o.facts.observationRevision then s else advanceShadow hypot s o

/-- The published shadow after one more observation. -/
def step (current : Option Shadow) (o : Observation) : Option Shadow :=
  some (reconcile hypot current o)

end

end TrinityCore.Magmaw.TransferLane
