import Mathlib.Data.List.Basic

/-!
# Observed completion of route nodes

`EvaluateCompletion` of `BotValidationRouteNativeLogic.h`: the verdict of a tree of observed
conditions on the facts of one tick, and the memory of objects that were observed spawned.
-/

namespace TrinityCore.Bots.RouteNative

/-- `CompletionKind`. -/
inductive CompletionKind where
  | none
  | gameObjectSelectable
  | gameObjectDespawned
  | bossSummoned
  | creatureSummoned
  | auraPresent
  | creatureAggressiveWithVictim
  | creatureGroundedAggressiveOrEngaged
  | instanceBossState
  | onTransport
  | vehicleSeated
  | transportAtStop
  | anyOf
  | allOf
  deriving DecidableEq, Repr

/-- `MemberScope`. -/
inductive MemberScope where
  | all
  | any
  | owner
  deriving DecidableEq, Repr

/-- The fields of a `CompletionContract` that its evaluation reads, without the children. -/
structure CompletionFields where
  kind : CompletionKind := .none
  kindName : String := ""
  entry : UInt32 := 0
  spawnId : UInt64 := 0
  spellId : UInt32 := 0
  bossIndex : Int32 := -1
  bossState : UInt32 := 0
  transportEntry : UInt32 := 0
  transportSpawnId : UInt64 := 0
  stopFrame : Int32 := -1
  vehicleEntry : UInt32 := 0
  seat : Int32 := -1
  scope : MemberScope := .all
  requireObservedPresent : Bool := true
  deriving DecidableEq, Repr

/-- `CompletionContract`. -/
inductive CompletionContract where
  | mk (own : CompletionFields) (children : List CompletionContract)

/-- `ActorFact`. -/
structure ActorFact where
  entry : UInt32 := 0
  spawnId : UInt64 := 0
  alive : Bool := false
  spawned : Bool := false
  selectable : Bool := false
  interactable : Bool := false
  reactAggressive : Bool := false
  inCombat : Bool := false
  flying : Bool := false
  hasVictim : Bool := false
  auraIds : List UInt32 := []
  deriving DecidableEq, Repr

/-- `ObjectQuery`. -/
structure ObjectQuery where
  facts : List ActorFact := []
  absenceAuthoritative : Bool := false
  deriving DecidableEq, Repr

/-- `MemberFact`. -/
structure MemberFact where
  guid : UInt64 := 0
  alive : Bool := false
  onRouteInstance : Bool := false
  owner : Bool := false
  onTransport : Bool := false
  transportEntry : UInt32 := 0
  transportSpawnId : UInt64 := 0
  vehicleEntry : UInt32 := 0
  seat : Int32 := -1
  deriving DecidableEq, Repr

/-- `TransportFact`, without the position. -/
structure TransportFact where
  present : Bool := false
  ambiguous : Bool := false
  entry : UInt32 := 0
  spawnId : UInt64 := 0
  goState : UInt32 := 0
  arrivedAtStop : Bool := false
  deriving DecidableEq, Repr

/-- `FactSource`: what is observed at one tick. -/
structure FactSource where
  creatures : UInt32 → UInt64 → List ActorFact
  gameObjects : UInt32 → UInt64 → ObjectQuery
  /-- None when the query fails. -/
  bossState : UInt32 → Option UInt32
  members : List MemberFact
  transport : UInt32 → UInt64 → TransportFact

/-- `Verdict`. -/
structure Verdict where
  satisfied : Bool := false
  reason : String := ""
  deriving DecidableEq, Repr

/-- `CompletionMemory`. -/
structure CompletionMemory where
  observedPresent : List String := []
  deriving DecidableEq, Repr

/-- `Seen`. -/
def CompletionMemory.seen (memory : CompletionMemory) (key : String) : Bool :=
  memory.observedPresent.contains key

/-- `Remember`. -/
def CompletionMemory.remember (memory : CompletionMemory) (key : String) : CompletionMemory :=
  if memory.seen key then memory
  else { observedPresent := memory.observedPresent ++ [key] }

@[simp] theorem seen_empty (key : String) : CompletionMemory.seen {} key = false := rfl

@[simp] theorem seen_remember (memory : CompletionMemory) (key key' : String) :
    (memory.remember key).seen key' = (memory.seen key' || key' == key) := by
  rw [CompletionMemory.remember]
  split
  · next hseen =>
    by_cases heq : key' = key
    · simp [heq, hseen]
    · simp [heq]
  · simp [CompletionMemory.seen, List.contains_eq_mem, Bool.decide_or, beq_eq_decide]

/-- `GoStateTransportStopped`. -/
def goStateTransportStopped : UInt32 := 25

/-- `TransportAtStop`. -/
def transportAtStop (fact : TransportFact) (frame : Int32) : Bool :=
  fact.present && !fact.ambiguous && decide (0 ≤ frame)
    && fact.goState == goStateTransportStopped + frame.toUInt32 && fact.arrivedAtStop

/-! ### Leaves -/

/-- The counts of the loop of `members`: considered and satisfied; none when a member is elsewhere
and blocks. -/
def countMembers (scope : MemberScope) (predicate : MemberFact → Bool) :
    List MemberFact → Nat → Nat → Option (Nat × Nat)
  | [], considered, satisfied => some (considered, satisfied)
  | member :: rest, considered, satisfied =>
    if !member.alive then countMembers scope predicate rest considered satisfied
    else if !member.onRouteInstance then
      if scope = .all then none else countMembers scope predicate rest considered satisfied
    else if scope = .owner ∧ !member.owner then
      countMembers scope predicate rest considered satisfied
    else
      countMembers scope predicate rest (considered + 1)
        (if predicate member then satisfied + 1 else satisfied)

variable (own : CompletionFields)

variable (facts : FactSource)

/-- The verdict of `members`. -/
def membersVerdict (predicate : MemberFact → Bool) : Verdict :=
  match countMembers own.scope predicate facts.members 0 0 with
  | none => { satisfied := false, reason := "members_off_route_map" }
  | some (considered, satisfied) =>
    let ok := decide (0 < considered) &&
      (if own.scope = .any then decide (0 < satisfied) else satisfied == considered)
    { satisfied := ok
      reason := if ok then "members_satisfied"
        else "members_pending:" ++ toString satisfied ++ "/" ++ toString considered }

/-- `aliveCreatures`. -/
def aliveCreatures : List ActorFact :=
  (facts.creatures own.entry own.spawnId).filter ActorFact.alive

/-- The verdict on whether an alive creature meets a condition. -/
def creatureVerdict (condition : ActorFact → Bool) (found missing : String) : Verdict :=
  if (aliveCreatures own facts).any condition then { satisfied := true, reason := found }
  else { satisfied := false, reason := missing }

/-- The key of an object in the memory. -/
def despawnKey (entry : UInt32) (spawnId : UInt64) : String :=
  "go:" ++ toString entry.toNat ++ ":" ++ toString spawnId.toNat

/-- An object of the query is spawned. -/
def observedSpawned (entry : UInt32) (spawnId : UInt64) : Bool :=
  (facts.gameObjects entry spawnId).facts.any ActorFact.spawned

/-- The case of `GameObjectDespawned`. -/
def evaluateDespawned (memory : CompletionMemory) : Verdict × CompletionMemory :=
  let key := despawnKey own.entry own.spawnId
  let query := facts.gameObjects own.entry own.spawnId
  if observedSpawned facts own.entry own.spawnId then
    ({ satisfied := false, reason := "gameobject_still_spawned" }, memory.remember key)
  else if query.facts.isEmpty && !query.absenceAuthoritative then
    ({ satisfied := false, reason := "gameobject_absence_unknown" }, memory)
  else if own.requireObservedPresent && !memory.seen key then
    ({ satisfied := false, reason := "gameobject_never_observed_spawned" }, memory)
  else ({ satisfied := true, reason := "gameobject_despawned" }, memory)

/-- The cases of `EvaluateCompletion` without children and memory. -/
def leafVerdict : Verdict :=
  match own.kind with
  | .gameObjectSelectable =>
    if (facts.gameObjects own.entry own.spawnId).facts.any fun object =>
        object.spawned && object.selectable && object.interactable then
      { satisfied := true, reason := "gameobject_selectable" }
    else { satisfied := false, reason := "gameobject_not_selectable" }
  | .bossSummoned | .creatureSummoned =>
    { satisfied := !(aliveCreatures own facts).isEmpty, reason := "creature_present" }
  | .auraPresent =>
    creatureVerdict own facts (fun actor => actor.auraIds.contains own.spellId)
      "aura_present" "aura_absent"
  | .creatureAggressiveWithVictim =>
    creatureVerdict own facts (fun actor => actor.reactAggressive && actor.hasVictim)
      "creature_aggressive_with_victim" "creature_not_aggressive"
  | .creatureGroundedAggressiveOrEngaged =>
    creatureVerdict own facts
      (fun actor => !actor.flying && (actor.reactAggressive || actor.inCombat || actor.hasVictim))
      "creature_grounded_engaged" "creature_not_grounded_engaged"
  | .instanceBossState =>
    match facts.bossState own.bossIndex.toUInt32 with
    | none => { satisfied := false, reason := "instance_script_unavailable" }
    | some state =>
      { satisfied := state == own.bossState, reason := "boss_state_" ++ toString state.toNat }
  | .onTransport =>
    let transport := facts.transport own.transportEntry own.transportSpawnId
    if !transport.present || transport.ambiguous then
      { satisfied := false
        reason := if transport.ambiguous then "transport_ambiguous" else "transport_missing" }
    else
      membersVerdict own facts fun member =>
        member.onTransport && member.transportEntry == transport.entry &&
          (transport.spawnId == 0 || member.transportSpawnId == transport.spawnId)
  | .vehicleSeated =>
    membersVerdict own facts fun member =>
      member.vehicleEntry == own.vehicleEntry && (decide (own.seat < 0) || member.seat == own.seat)
  | .transportAtStop =>
    let transport := facts.transport own.transportEntry own.transportSpawnId
    { satisfied := transportAtStop transport own.stopFrame
      reason := "transport_state_" ++ toString transport.goState.toNat }
  | _ => { satisfied := false, reason := "completion_kind_unknown" }

/-! ### Trees -/

mutual

/-- `EvaluateCompletion`. -/
def evaluateCompletion (facts : FactSource) :
    CompletionContract → CompletionMemory → Verdict × CompletionMemory
  | ⟨own, children⟩, memory =>
    match own.kind with
    | .gameObjectDespawned => evaluateDespawned own facts memory
    | .anyOf =>
      let (result, reasons, memory) := evaluateChildren facts true children false "" memory
      ({ satisfied := result, reason := "any_of[" ++ reasons ++ "]" }, memory)
    | .allOf =>
      let (result, reasons, memory) := evaluateChildren facts false children true "" memory
      ({ satisfied := result, reason := "all_of[" ++ reasons ++ "]" }, memory)
    | _ => (leafVerdict own facts, memory)

/-- The loop over the children of an `any_of` or `all_of`; all of them are evaluated. -/
def evaluateChildren (facts : FactSource) (any : Bool) :
    List CompletionContract → Bool → String → CompletionMemory → Bool × String × CompletionMemory
  | [], result, reasons, memory => (result, reasons, memory)
  | ⟨own, children⟩ :: rest, result, reasons, memory =>
    let (verdict, memory) := evaluateCompletion facts ⟨own, children⟩ memory
    let reasons := reasons ++ (if reasons.isEmpty then "" else ",") ++ own.kindName ++ "=" ++
      (if verdict.satisfied then "1" else "0")
    let result := if any then result || verdict.satisfied else result && verdict.satisfied
    evaluateChildren facts any rest result reasons memory

end

end TrinityCore.Bots.RouteNative
