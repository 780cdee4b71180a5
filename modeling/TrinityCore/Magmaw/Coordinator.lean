import Mathlib.Data.List.AList
import Mathlib.Data.List.Sort
import Mathlib.Data.Prod.Lex
import Mathlib.Data.String.Basic
import TrinityCore.Encounter.Blackboard

/-!
# The raid plan of the coordinator

`BotMagmawRaidPlan.h`, `BotMagmawCoordinatorAssignments.cpp` and `BotMagmawCoordinator.cpp`: the
canonical roster, the candidates for each slot, and one reconciliation of the plan. Epochs,
nonces and generations are counted without a bound.
-/

namespace TrinityCore.Magmaw

open Bool Encounter

/-- `MagmawRaidAssignmentSlot`, all of its valid values. -/
inductive AssignmentSlot
  | fireMageBaiter
  | marksmanshipHunterBaiter
  | hookOne
  | hookTwo
  | mainPullTank
  | semanticLaneOwner
  | bloodlustOwner
  deriving DecidableEq, Repr

/-- The slots in the order of the array. -/
def AssignmentSlot.all : List AssignmentSlot :=
  [.fireMageBaiter, .marksmanshipHunterBaiter, .hookOne, .hookTwo, .mainPullTank,
    .semanticLaneOwner, .bloodlustOwner]

/-- `MagmawRaidMode`. -/
inductive RaidMode
  | unknown
  | normal10
  | heroic10
  | normal25
  | heroic25
  deriving DecidableEq, Repr

/-- The number of a mode. -/
def RaidMode.toUnsigned : RaidMode → Nat
  | .unknown => 0
  | .normal10 => 1
  | .heroic10 => 2
  | .normal25 => 3
  | .heroic25 => 4

/-- `MagmawRosterMember`. -/
structure RosterMember where
  guid : ObjectGuid := 0
  rosterSlotId : String := ""
  role : String := ""
  classSpec : String := ""
  admitted : Bool := false
  leaseOwned : Bool := false
  deriving DecidableEq, Repr

/-- `MagmawRosterView`. -/
structure RosterView where
  lifecycle : Scope := {}
  generation : UInt64 := 0
  expectedSize : UInt32 := 0
  mode : RaidMode := .unknown
  authoritative : Bool := false
  members : List RosterMember := []
  deriving DecidableEq, Repr

/-- `MagmawRaidAssignment`. -/
structure RaidAssignment where
  assigneeGuid : ObjectGuid := 0
  epoch : Nat := 0
  nonce : Nat := 0
  deriving DecidableEq, Repr

/-- The assignment that `ApplyAssignment` leaves in the place of another. -/
def RaidAssignment.apply (assignment : RaidAssignment)
    (desired : ObjectGuid) (scopeChanged : Bool) : RaidAssignment :=
  if !scopeChanged && assignment.assigneeGuid == desired then assignment
  else if assignment.assigneeGuid != 0 || desired != 0 then
    { assigneeGuid := desired
      epoch := max 1 (assignment.epoch + 1)
      nonce := max 1 (assignment.nonce + 1) }
  else { assignment with assigneeGuid := desired }

/-- `MagmawRaidPlan`. -/
structure RaidPlan where
  lifecycle : Scope := {}
  sourceRevision : UInt64 := 0
  rosterGeneration : UInt64 := 0
  generation : Nat := 0
  rosterExpectedSize : UInt32 := 0
  rosterMode : RaidMode := .unknown
  rosterFingerprint : String := ""
  authoritative : Bool := false
  mangleOwnerGuid : ObjectGuid := 0
  mangleOwnerAuthoritative : Bool := false
  assignments : AssignmentSlot → RaidAssignment := fun _ => {}

namespace RaidPlan

/-- `Matches`. -/
def isMatch (plan : RaidPlan) (scope : Scope) (sourceRevision rosterGeneration : UInt64)
    (rosterFingerprint : String) : Bool :=
  plan.lifecycle == scope && plan.sourceRevision == sourceRevision
    && plan.rosterGeneration == rosterGeneration
    && plan.rosterFingerprint == rosterFingerprint

/-- `ApplyAssignment`. -/
def applyAssignment (plan : RaidPlan) (slot : AssignmentSlot) (desired : ObjectGuid)
    (scopeChanged : Bool) : RaidPlan :=
  { plan with
    assignments := fun other =>
      if other = slot then (plan.assignments slot).apply desired scopeChanged
      else plan.assignments other }

end RaidPlan

/-- `MagmawRosterLiveness`. -/
inductive RosterLiveness
  | unobserved
  | alive
  | dead
  | invalid
  deriving DecidableEq, Repr

/-- `MagmawRosterObservations`. -/
abbrev RosterObservations := AList fun _ : UInt64 => RosterLiveness

/-- `AssignmentRule`. -/
structure AssignmentRule where
  value : AssignmentSlot
  role : String
  classSpec : String
  deriving DecidableEq, Repr

/-- `CandidatePool`. -/
structure CandidatePool where
  assignable : List ObjectGuid := []
  retainable : List ObjectGuid := []
  identityCount : Nat := 0
  deriving DecidableEq, Repr

/-- `Rules`. -/
def rules : List AssignmentRule :=
  [⟨.fireMageBaiter, "dps", "fire_mage"⟩,
    ⟨.marksmanshipHunterBaiter, "dps", "marksmanship_hunter"⟩,
    ⟨.hookOne, "dps", ""⟩,
    ⟨.hookTwo, "dps", ""⟩,
    ⟨.mainPullTank, "tank", ""⟩,
    ⟨.bloodlustOwner, "dps", "elemental_shaman"⟩]

/-- `FindRule`. -/
def findRule (slot : AssignmentSlot) : Option AssignmentRule := rules.find? (·.value == slot)

/-- `MatchesRule`. -/
def matchesRule (member : RosterMember) (rule : AssignmentRule) : Bool :=
  member.role == rule.role
    && (rule.classSpec == "" || member.classSpec == rule.classSpec
      || (rule.value == .marksmanshipHunterBaiter && member.classSpec == "survival_hunter"))

/-- One round of the loop of `BuildMagmawRosterObservations`. -/
def observePlayer (observations : RosterObservations) (actor : ActorSnapshot) :
    RosterObservations :=
  if actor.guid = 0 then observations
  else
    let value : RosterLiveness :=
      if actor.kind = .player then if actor.alive then .alive else .dead else .invalid
    if actor.guid ∈ observations then observations.insert actor.guid .invalid
    else observations.insert actor.guid value

/-- `BuildMagmawRosterObservations`. -/
def buildRosterObservations (board : Blackboard) : RosterObservations :=
  board.players.foldl observePlayer ∅

/-- `ObserveMagmawRosterMember`. -/
def observeRosterMember (observations : RosterObservations) (guid : ObjectGuid) :
    RosterLiveness := (observations.lookup guid).getD .unobserved

/-- Whether the loop of `BuildCandidates` counts a member. -/
def isCandidate (rule : AssignmentRule) (slot : AssignmentSlot) (mainTankConfigured : Bool)
    (configuredMainTank : ObjectGuid) (member : RosterMember) : Bool :=
  matchesRule member rule
    && !(slot == .mainPullTank && mainTankConfigured && member.guid != configuredMainTank)

/-- One round of the loop of `BuildCandidates`, for a member it counts. -/
def CandidatePool.push (observations : RosterObservations) (pool : CandidatePool)
    (member : RosterMember) : CandidatePool :=
  let liveness := observeRosterMember observations member.guid
  { assignable := if liveness = .alive then pool.assignable ++ [member.guid] else pool.assignable
    retainable :=
      if liveness ≠ .dead ∧ liveness ≠ .invalid then pool.retainable ++ [member.guid]
      else pool.retainable
    identityCount := pool.identityCount + 1 }

/-- `BuildCandidates`. -/
def buildCandidates (members : List RosterMember) (observations : RosterObservations)
    (slot : AssignmentSlot) (authoritative : Bool) (mainTankConfigured : Bool)
    (configuredMainTank : ObjectGuid) : CandidatePool :=
  match authoritative, findRule slot with
  | true, some rule =>
    (members.filter (isCandidate rule slot mainTankConfigured configuredMainTank)).foldl
      (CandidatePool.push observations) {}
  | _, _ => {}

/-- `FirstAvailable`. -/
def firstAvailable (choices excluded : List ObjectGuid) : ObjectGuid :=
  (choices.find? fun guid => guid != 0 && !excluded.contains guid).getD 0

/-- The assignee that `ReconcileSlot` applies. -/
def desiredAssignee (before : RaidPlan) (slot : AssignmentSlot) (pool : CandidatePool)
    (scopeChanged : Bool) (excluded : List ObjectGuid) : ObjectGuid :=
  let assignee := (before.assignments slot).assigneeGuid
  if !scopeChanged && pool.retainable.contains assignee && !excluded.contains assignee then
    assignee
  else firstAvailable pool.assignable excluded

/-- `ReconcileSlot`. -/
def reconcileSlot (plan before : RaidPlan) (slot : AssignmentSlot) (pool : CandidatePool)
    (scopeChanged : Bool) (excluded : List ObjectGuid) : RaidPlan :=
  plan.applyAssignment slot (desiredAssignee before slot pool scopeChanged excluded) scopeChanged

/-- `ReconcileStandardSlots`. -/
def reconcileStandardSlots (plan before : RaidPlan) (members : List RosterMember)
    (observations : RosterObservations) (authoritative scopeChanged mainTankConfigured : Bool)
    (configuredMainTank : ObjectGuid) : RaidPlan :=
  [AssignmentSlot.fireMageBaiter, .marksmanshipHunterBaiter, .mainPullTank].foldl
    (fun plan slot => reconcileSlot plan before slot
      (buildCandidates members observations slot authoritative mainTankConfigured
        configuredMainTank) scopeChanged []) plan

/-- The set of an assignee, empty without one. -/
def excludedAssignee (plan : RaidPlan) (slot : AssignmentSlot) : List ObjectGuid :=
  let assignee := (plan.assignments slot).assigneeGuid
  if assignee != 0 then [assignee] else []

/-- `ReconcileHooks`. -/
def reconcileHooks (plan before : RaidPlan) (members : List RosterMember)
    (observations : RosterObservations) (authoritative scopeChanged : Bool) : RaidPlan :=
  let hookOne := buildCandidates members observations .hookOne authoritative false 0
  let hookTwo := buildCandidates members observations .hookTwo authoritative false 0
  let plan := reconcileSlot plan before .hookOne hookOne scopeChanged
    (excludedAssignee before .hookTwo)
  reconcileSlot plan before .hookTwo hookTwo scopeChanged (excludedAssignee plan .hookOne)

/-- One round of the loop of `ReconcileLane`. -/
def pushBait (plan : RaidPlan) (observations : RosterObservations) (lane : CandidatePool)
    (slot : AssignmentSlot) : CandidatePool :=
  let bait := (plan.assignments slot).assigneeGuid
  if bait != 0 then
    { lane with
      retainable := lane.retainable ++ [bait]
      assignable :=
        if observeRosterMember observations bait = .alive then lane.assignable ++ [bait]
        else lane.assignable }
  else lane

/-- `ReconcileLane`. -/
def reconcileLane (plan before : RaidPlan) (observations : RosterObservations)
    (authoritative scopeChanged : Bool) : RaidPlan :=
  let lane : CandidatePool :=
    if authoritative then
      [AssignmentSlot.fireMageBaiter, .marksmanshipHunterBaiter].foldl (pushBait plan observations)
        {}
    else {}
  reconcileSlot plan before .semanticLaneOwner lane scopeChanged []

/-- `ReconcileBloodlust`. -/
def reconcileBloodlust (plan before : RaidPlan) (members : List RosterMember)
    (observations : RosterObservations) (authoritative scopeChanged : Bool) : RaidPlan :=
  let pool := buildCandidates members observations .bloodlustOwner authoritative false 0
  let pool := if pool.identityCount ≠ 1 then {} else pool
  reconcileSlot plan before .bloodlustOwner pool scopeChanged []

/-- `ReconcileMagmawAssignments`. -/
def reconcileAssignments (plan before : RaidPlan) (members : List RosterMember)
    (observations : RosterObservations) (authoritative scopeChanged mainTankConfigured : Bool)
    (configuredMainTank : ObjectGuid) : RaidPlan :=
  if !authoritative && !scopeChanged then plan
  else
    let plan := reconcileStandardSlots plan before members observations authoritative scopeChanged
      mainTankConfigured configuredMainTank
    let plan := reconcileHooks plan before members observations authoritative scopeChanged
    let plan := reconcileLane plan before observations authoritative scopeChanged
    reconcileBloodlust plan before members observations authoritative scopeChanged

/-- `MagmawTruth`. -/
inductive MagmawTruth
  | unknown
  | false
  | true
  deriving DecidableEq, Repr

/-- What the coordinator reads of `MagmawFacts`. -/
structure MagmawFacts where
  lifecycle : Scope := {}
  observationRevision : UInt64 := 0
  lifecycleAuthoritative : Bool := false
  projectionAuthoritative : Bool := false
  ownsNode : MagmawTruth := .unknown
  mangleOwnerGuid : ObjectGuid := 0
  mangleOwnerAuthoritative : Bool := false
  deriving DecidableEq, Repr

/-- `RosterAdmission`. -/
structure RosterAdmission where
  members : List RosterMember := []
  fingerprint : String := ""
  authoritative : Bool := false
  deriving DecidableEq, Repr

/-- `KnownRole`. -/
def knownRole (role : String) : Bool := ["tank", "healer", "dps"].contains role

/-- `ExpectedModeSize`. -/
def expectedModeSize (mode : RaidMode) : Nat :=
  match mode with
  | .normal10 | .heroic10 => 10
  | .normal25 | .heroic25 => 25
  | .unknown => 0

/-- `ValidRosterMember`. -/
def validRosterMember (member : RosterMember) : Bool :=
  member.guid != 0 && member.rosterSlotId != "" && knownRole member.role
    && member.classSpec != "" && member.admitted && member.leaseOwned

/-- `AppendToken`; sizes are in bytes. -/
def token (value : String) : String := toString value.utf8ByteSize ++ ":" ++ value ++ ";"

/-- A number in the fingerprint. -/
def numberToken (value : Nat) : String := toString value ++ ";"

/-- A truth value in the fingerprint. -/
def boolToken (value : Bool) : String := numberToken (if value then 1 else 0)

/-- `AppendScope`. -/
def scopeToken (scope : Scope) : String :=
  numberToken scope.serverEpoch.toNat ++ token scope.cohortId
    ++ numberToken scope.attemptId.toNat ++ numberToken scope.wipeGeneration.toNat
    ++ numberToken scope.routeGeneration.toNat ++ token scope.nodeId
    ++ numberToken scope.mapId.toNat ++ numberToken scope.instanceId.toNat
    ++ token scope.encounterId ++ numberToken scope.encounterEpoch.toNat

/-- The part of the fingerprint for a member. -/
def memberToken (member : RosterMember) : String :=
  numberToken member.guid.toNat ++ token member.rosterSlotId ++ token member.role
    ++ token member.classSpec ++ boolToken member.admitted ++ boolToken member.leaseOwned

/-- `RosterFingerprint`. -/
def rosterFingerprint (view : RosterView) (members : List RosterMember) : String :=
  scopeToken view.lifecycle ++ numberToken view.mode.toUnsigned
    ++ numberToken view.expectedSize.toNat ++ boolToken view.authoritative
    ++ numberToken members.length ++ String.join (members.map memberToken)

/-- What members are sorted by. -/
def RosterMember.key (member : RosterMember) :
    Nat ×ₗ String ×ₗ String ×ₗ String ×ₗ Bool ×ₗ Bool :=
  toLex (member.guid.toNat, toLex (member.rosterSlotId, toLex (member.role, toLex (member.classSpec,
    toLex (member.admitted, member.leaseOwned)))))

/-- The members in the order of the canonical roster. -/
def canonicalMembers (members : List RosterMember) : List RosterMember :=
  members.insertionSort fun left right => left.key ≤ right.key

/-- `AdmitCanonicalRoster`. -/
def admitCanonicalRoster (view : RosterView) : RosterAdmission :=
  let members := canonicalMembers view.members
  let modeSize := expectedModeSize view.mode
  { members := members
    fingerprint := rosterFingerprint view members
    authoritative :=
      view.authoritative && view.generation != 0 && modeSize != 0
        && view.expectedSize.toNat == modeSize && members.length == modeSize
        && members.all validRosterMember
        && decide (members.map RosterMember.guid).Nodup
        && decide (members.map RosterMember.rosterSlotId).Nodup }

/-- `SourcesAuthoritative`. -/
def sourcesAuthoritative (facts : MagmawFacts) (board : Blackboard) (roster : RosterView)
    (admission : RosterAdmission) : Bool :=
  facts.lifecycle == board.currentScope && facts.observationRevision == board.revision
    && roster.lifecycle == facts.lifecycle && facts.lifecycleAuthoritative
    && facts.projectionAuthoritative && facts.ownsNode == .true && admission.authoritative

/-- `FindMember`. -/
def findMember (members : List RosterMember) (guid : ObjectGuid) : Option RosterMember :=
  members.find? (·.guid == guid)

/-- `ObserveMangleOwner`. -/
def observeMangleOwner (plan : RaidPlan) (facts : MagmawFacts) (members : List RosterMember)
    (observations : RosterObservations) : RaidPlan :=
  let mangleOwnerAuthoritative := plan.authoritative && facts.mangleOwnerAuthoritative
  let mangleOwnerGuid := if mangleOwnerAuthoritative then facts.mangleOwnerGuid else 0
  let observedAlive := match findMember members mangleOwnerGuid with
    | none => false
    | some owner => observeRosterMember observations owner.guid == .alive
  if mangleOwnerAuthoritative && !observedAlive then
    { plan with mangleOwnerAuthoritative := false, mangleOwnerGuid := 0 }
  else
    { plan with
      mangleOwnerAuthoritative := mangleOwnerAuthoritative
      mangleOwnerGuid := mangleOwnerGuid }

/-- `AssignmentsChanged`. -/
def assignmentsChanged (before after : RaidPlan) : Bool :=
  AssignmentSlot.all.any fun slot => before.assignments slot != after.assignments slot

/-- `FinalizePlan`. -/
def finalizePlan (plan before : RaidPlan) (scopeChanged : Bool) : RaidPlan :=
  let changed := scopeChanged
    || before.rosterGeneration != plan.rosterGeneration
    || before.rosterExpectedSize != plan.rosterExpectedSize
    || before.rosterMode != plan.rosterMode
    || before.rosterFingerprint != plan.rosterFingerprint
    || before.authoritative != plan.authoritative
    || before.mangleOwnerAuthoritative != plan.mangleOwnerAuthoritative
    || before.mangleOwnerGuid != plan.mangleOwnerGuid
    || assignmentsChanged before plan
  { plan with generation := before.generation + if changed then 1 else 0 }

/-- The main tank the board configures, if it does. -/
def configuredMainTank (board : Blackboard) : Option ObjectGuid :=
  (board.assignments.find? fun lease =>
    lease.kind == .tank && lease.slot == "main_tank").map (·.assigneeGuid)

/-- `MagmawCoordinator::Reconcile`; a coordinator is its plan. -/
def reconcile (current : Option RaidPlan) (facts : MagmawFacts) (board : Blackboard)
    (roster : RosterView) : RaidPlan :=
  let admission := admitCanonicalRoster roster
  let authoritative := sourcesAuthoritative facts board roster admission
  let before := current.getD {}
  if current.isSome && before.isMatch facts.lifecycle facts.observationRevision roster.generation
      admission.fingerprint && before.authoritative == authoritative then before
  else
    let scopeChanged := current.isNone || before.lifecycle != facts.lifecycle
    let plan : RaidPlan := { before with
      lifecycle := facts.lifecycle
      sourceRevision := facts.observationRevision
      rosterGeneration := roster.generation
      rosterExpectedSize := roster.expectedSize
      rosterMode := roster.mode
      rosterFingerprint := admission.fingerprint
      authoritative := authoritative }
    let observations := buildRosterObservations board
    let mainTank := configuredMainTank board
    let plan := reconcileAssignments plan before admission.members observations authoritative
      scopeChanged mainTank.isSome (mainTank.getD 0)
    let plan := observeMangleOwner plan facts admission.members observations
    finalizePlan plan before scopeChanged

/-- What one call of `Reconcile` is given. -/
structure Observation where
  facts : MagmawFacts := {}
  board : Blackboard := {}
  roster : RosterView := {}

/-- The coordinator after a call. -/
def coordinate (current : Option RaidPlan) (call : Observation) : Option RaidPlan :=
  some (reconcile current call.facts call.board call.roster)

end TrinityCore.Magmaw
