import TrinityCore.Magmaw.ParasiteHazard

/-!
# The shared bait lane of the Magmaw encounter

`MagmawLaneTransitionState` of `BotMagmawLaneTransition.h`, moved by `EnsureSafeParasiteRoute` of
`BotAdaptiveMagmawParasitePolicy.h`: two baiters take one lane transition at a time. Coordinates
are exact, and what the geometric checks of `BotMagmawParasiteRoute.h` admit is given with each
call. The counters are natural numbers, as none is taken to reach its width. `Preempted`,
`MageHandoffs` and `ArrivalObservedRevision`, which a call writes and does not read, are left out.
-/

namespace TrinityCore.Magmaw.BaitLane

open Function List ParasiteHazard

/-- The two baiters of a transition. -/
inductive Slot where
  | mage
  | hunter
  deriving DecidableEq, Repr

/-- `Direction`. -/
inductive Direction where
  | none
  | left
  | right
  deriving DecidableEq, Repr

/-- `OppositeDirection`. -/
def Direction.opposite (direction : Direction) : Direction :=
  if direction = .left then .right else .left

/-- The points of a `MagmawParasiteRoutePlan`. -/
abbrev Route := List Vector3

/-- The scope of a board. -/
structure Scope where
  key : String := ""
  attemptId : UInt64 := 0
  wipeGeneration : UInt32 := 0
  routeGeneration : UInt64 := 0
  mapId : UInt32 := 0
  instanceId : UInt32 := 0
  deriving DecidableEq, Repr

/-- `FormationAnchors`, and `FullLaneCorridorSafe` of them. -/
structure Formation where
  support : Vector3
  left : Vector3
  right : Vector3
  fullLaneCorridorSafe : Bool

/-- What the geometric checks of one call answer. -/
structure Checks where
  crashIntersects : Vector3 → Bool := fun _ => false
  segmentAdmissible : Vector3 → ℚ → Bool := fun _ _ => true
  /-- The waypoints of each far arc, in the order in which they are tried. -/
  farArcs : Vector3 → ℚ → List (Vector3 × Vector3) := fun _ _ => []
  routeAdmissible : Route → ℚ → Bool := fun _ _ => true
  remainingRouteSafe : Route → Nat → Bool := fun _ _ => true
  remainingRouteAvoidsCrash : Route → Nat → Bool := fun _ _ => true

/-- What one call is given: the bot, the baiters of its board, and what it sees. -/
structure Call extends Checks where
  guid : ObjectGuid
  mage : ObjectGuid
  hunter : ObjectGuid
  position : Vector3
  generation : UInt64
  kind : UInt8

/-- `DestinationTolerance`. -/
def destinationTolerance : ℚ := 4

/-- `SameNavigationFloor`. -/
def sameNavigationFloor (left right : Vector3) : Bool := decide (|left.z - right.z| ≤ 4)

/-- On the floor of a point, and within the tolerance of it. -/
def reaches (position point : Vector3) : Bool :=
  sameNavigationFloor position point && withinDistance position point destinationTolerance

namespace Formation

/-- `BuildFarArc`. -/
def buildFarArc (call : Call) (destination : Vector3) (clearance : ℚ) : Option Route :=
  ((call.farArcs destination clearance).map fun (first, second) => [first, second, destination]).find?
    fun route => call.routeAdmissible route clearance

/-- `Build`, with `PreferredClearance` and `MinimumClearance`. -/
def build (f : Formation) (call : Call) (destination : Vector3) : Option Route :=
  if !sameNavigationFloor call.position f.support ||
      !sameNavigationFloor call.position destination then none
  else
    [16, 10].findSome? fun clearance =>
      if !call.crashIntersects destination && call.segmentAdmissible destination clearance then
        some [destination]
      else buildFarArc call destination clearance

/-- `LaneEndpoint`. -/
def laneEndpoint (f : Formation) (point : Vector3) : Bool :=
  withinDistance point f.left destinationTolerance ||
    withinDistance point f.right destinationTolerance

/-- `DestinationFor`. -/
def destinationFor (f : Formation) (direction : Direction) : Vector3 :=
  if direction = .left then f.left else f.right

/-- A route to an endpoint of a lane that is safe. -/
def admitRoute (f : Formation) (call : Call) (destination : Vector3) : Option Route :=
  if f.laneEndpoint destination && f.fullLaneCorridorSafe then f.build call destination else none

/-- `Distance2d(position, near) + DestinationTolerance < Distance2d(position, far)`. -/
def nearer (position near far : Vector3) : Bool :=
  let gap := distance2dSquared position far - distance2dSquared position near - 16
  decide (0 < gap) && decide (64 * distance2dSquared position near < gap * gap)

/-- `InitialDirection`. -/
def initialDirection (f : Formation) (scope : Scope) (position : Vector3) : Direction :=
  if nearer position f.left f.right then .right
  else if nearer position f.right f.left then .left
  else if scope.attemptId % 2 ≠ 0 then .right
  else .left

end Formation

/-! ### The transition -/

/-- What the transition keeps of a slot. -/
structure Baiter where
  guid : ObjectGuid := 0
  parasiteRoute : Route := []
  routePoint : Nat := 0
  routeRevision : Nat := 0
  arrived : Bool := false

/-- The revision once the route is given up. -/
def Baiter.nextRevision (b : Baiter) : Nat :=
  if b.parasiteRoute.isEmpty then b.routeRevision else b.routeRevision + 1

/-- Another route under the next revision. -/
def Baiter.attach (b : Baiter) (route : Route) : Baiter :=
  { b with routeRevision := b.nextRevision, parasiteRoute := route, routePoint := 0 }

/-- `MagmawLaneTransitionState`. -/
structure MagmawLaneTransitionState where
  scope : Scope := {}
  baiter : Slot → Baiter := fun _ => {}
  mechanicGeneration : UInt64 := 0
  mechanicKind : UInt8 := 0
  transitionId : Nat := 0
  lane : Direction := .none
  destination : Vector3 := {}
  committed : Bool := false
  arrivedGeneration : UInt64 := 0
  arrivedMechanicKind : UInt8 := 0
  arrivalGenerationCaptured : Bool := false

namespace MagmawLaneTransitionState

variable (state : MagmawLaneTransitionState)

/-- The slot of a baiter. -/
def slotOf (guid : ObjectGuid) : Option Slot :=
  if guid = (state.baiter .mage).guid then some .mage
  else if guid = (state.baiter .hunter).guid then some .hunter
  else none

/-- `IsArrived`. -/
def isArrived : Bool :=
  state.committed && (state.baiter .mage).arrived && (state.baiter .hunter).arrived

/-- The state with another baiter in a slot. -/
def setBaiter (slot : Slot) (b : Baiter) :
    MagmawLaneTransitionState :=
  { state with baiter := update state.baiter slot b }

/-- `ObserveScope`. -/
def observeScope (scope : Scope) : MagmawLaneTransitionState :=
  if state.scope = scope then state else { scope }

/-- `HandOffMage`. -/
def handOffMage (mage : ObjectGuid) :
    MagmawLaneTransitionState :=
  let b := state.baiter .mage
  state.setBaiter .mage { guid := mage, routeRevision := b.nextRevision, arrived := b.arrived }

/-- `AssignBaiters`: the hunter is kept. -/
def assignHunter (hunter : ObjectGuid) :
    MagmawLaneTransitionState :=
  let b := state.baiter .hunter
  if b.guid = 0 then state.setBaiter .hunter { b with guid := hunter } else state

/-- `AssignBaiters`: another mage takes the slot over. -/
def assignMage (mage : ObjectGuid) :
    MagmawLaneTransitionState :=
  let b := state.baiter .mage
  if b.guid = 0 then state.setBaiter .mage { b with guid := mage }
  else if mage ≠ 0 ∧ mage ≠ b.guid then state.handOffMage mage
  else state

/-- `ObserveRouteProgress`: the points of the route that are reached one after another. -/
def observeRouteProgress (slot : Slot) (position : Vector3) :
    MagmawLaneTransitionState :=
  let b := state.baiter slot
  if !state.committed then state
  else
    state.setBaiter slot { b with
      routePoint := b.routePoint +
        ((b.parasiteRoute.drop b.routePoint).takeWhile (reaches position)).length }

/-- `ObserveArrival`. -/
def observeArrival (slot : Slot) (position : Vector3) :
    MagmawLaneTransitionState :=
  let state := state.observeRouteProgress slot position
  if state.committed && reaches position state.destination then
    state.setBaiter slot { state.baiter slot with arrived := true }
  else state

/-- `RecordArrivalGeneration`. -/
def recordArrivalGeneration (call : Call) :
    MagmawLaneTransitionState :=
  if state.isArrived && !state.arrivalGenerationCaptured then
    { state with
      arrivedGeneration := call.generation
      arrivedMechanicKind := call.kind
      arrivalGenerationCaptured := true }
  else state

/-- `GenerationRetired`. -/
def generationRetired (call : Call) : Bool :=
  state.isArrived && state.arrivalGenerationCaptured &&
    (state.arrivedGeneration != call.generation || state.arrivedMechanicKind != call.kind)

/-- `Begin`. -/
def begin (call : Call) (direction : Direction)
    (destination : Vector3) : MagmawLaneTransitionState :=
  { state with
    transitionId := state.transitionId + 1
    mechanicGeneration := call.generation
    mechanicKind := call.kind
    lane := direction
    destination := destination
    baiter := fun slot => { guid := (state.baiter slot).guid }
    committed := true
    arrivedGeneration := 0
    arrivedMechanicKind := 0
    arrivalGenerationCaptured := false }

/-- `AttachParasiteRoute`, of a route that is not empty. -/
def attachParasiteRoute (slot : Slot) (route : Route) :
    MagmawLaneTransitionState :=
  { state.setBaiter slot ((state.baiter slot).attach route) with destination := route.getLastD {} }

end MagmawLaneTransitionState

/-! ### Calls -/

/-- A route attached to a slot, in a transition and under a revision. -/
structure Attachment where
  slot : Slot
  route : Route
  transitionId : Nat
  revision : Nat

/-- `MovementGeneration` while the route is attached. -/
def Attachment.movementGeneration (a : Attachment) : Nat := a.transitionId ^^^ (a.revision <<< 32)

/-- The transition, and what was seen of it: the slots observed at the destination since the last
commit, what was visible when both first were, and the routes ever attached, the last one first. -/
structure Watched where
  state : MagmawLaneTransitionState := {}
  seen : Slot → Bool := fun _ => false
  recorded : Option (UInt64 × UInt8) := none
  attached : List Attachment := []

namespace Watched

/-- The observation of one call: `ObserveArrival` and `RecordArrivalGeneration`. -/
def observe (w : Watched) (slot : Slot) (call : Call) : Watched :=
  let seen :=
    if w.state.committed && reaches call.position w.state.destination then update w.seen slot true
    else w.seen
  { w with
    state := (w.state.observeArrival slot call.position).recordArrivalGeneration call
    seen := seen
    recorded := w.recorded.or
      (if seen .mage && seen .hunter then some (call.generation, call.kind) else none) }

/-- `AttachParasiteRoute`. -/
def attach (w : Watched) (slot : Slot) (route : Route) : Watched :=
  let state := w.state.attachParasiteRoute slot route
  { w with
    state := state
    attached := ⟨slot, route, state.transitionId, (state.baiter slot).routeRevision⟩ :: w.attached }

/-- `BeginParasiteRoute`. -/
def begin (w : Watched) (call : Call) (direction : Direction) (slot : Slot) (route : Route) :
    Watched :=
  { w with
    state := w.state.begin call direction (route.getLastD {})
    seen := fun _ => false
    recorded := none : Watched }.attach slot route

/-- An arrived lane is retired by another generation or kind; `none` ends the call. -/
def retire (f : Formation) (call : Call) (slot : Slot) (w : Watched) : Option Watched :=
  if w.state.isArrived && w.state.generationRetired call then
    let direction := w.state.lane.opposite
    (f.admitRoute call (f.destinationFor direction)).map (w.begin call direction slot)
  else some w

/-- A bot without a route opens, promotes or joins a lane. -/
def join (f : Formation) (scope : Scope) (call : Call) (slot : Slot) (w : Watched) : Watched :=
  let without := (w.state.baiter slot).parasiteRoute.isEmpty
  let promotePillarLane :=
    w.state.committed && w.state.mechanicKind == 1 && call.kind == 2 && without
  let attachCommittedLane := w.state.committed && w.state.mechanicKind == call.kind && without
  if promotePillarLane || attachCommittedLane then
    match f.admitRoute call w.state.destination with
    | none => w
    | some route =>
      if attachCommittedLane then w.attach slot route else w.begin call w.state.lane slot route
  else if !w.state.committed then
    let direction := f.initialDirection scope call.position
    ([direction, direction.opposite].findSome? fun direction =>
      (f.admitRoute call (f.destinationFor direction)).map (w.begin call direction slot)).getD w
  else w

/-- The next point of a bot's route, which is replaced where it is not safe any more. -/
def follow (f : Formation) (call : Call) (slot : Slot) (w : Watched) : Watched × Option Vector3 :=
  let b := w.state.baiter slot
  if !w.state.committed || b.parasiteRoute.isEmpty || b.routePoint ≥ b.parasiteRoute.length then
    (w, none)
  else if call.remainingRouteSafe b.parasiteRoute b.routePoint &&
      call.remainingRouteAvoidsCrash b.parasiteRoute b.routePoint then
    (w, b.parasiteRoute[b.routePoint]?)
  else
    match f.build call w.state.destination with
    | none => (w, none)
    | some replacement => (w.attach slot replacement, replacement[0]?)

/-- `EnsureSafeParasiteRoute`. -/
def ensureSafeParasiteRoute (f : Formation) (scope : Scope) (w : Watched) (call : Call) :
    Watched × Option Vector3 :=
  let w := { w with state := ((w.state.observeScope scope).assignHunter call.hunter).assignMage call.mage }
  match w.state.slotOf call.guid with
  | none => (w, none)
  | some slot =>
    let w := w.observe slot call
    match w.retire f call slot with
    | none => (w, none)
    | some w => (w.join f scope call slot).follow f call slot

/-- The state that a call leaves. -/
def step (f : Formation) (scope : Scope) (w : Watched) (call : Call) : Watched :=
  (w.ensureSafeParasiteRoute f scope call).1

end Watched

/-! ### What a call keeps -/

open MagmawLaneTransitionState

variable {f : Formation} {scope : Scope} {call : Call} {slot : Slot} {w w' w'' : Watched}
  {route : Route} {state : MagmawLaneTransitionState}

/-- Attached later to the slot of `b`: in a later transition, or under a later revision. -/
def Attachment.Later (a b : Attachment) : Prop :=
  b.transitionId < a.transitionId ∨ b.transitionId = a.transitionId ∧ b.revision < a.revision

/-- The invariant of the lane. -/
structure Inv (f : Formation) (scope : Scope) (w : Watched) : Prop where
  scope : w.state.scope = scope
  destination : w.state.committed = true → w.state.destination = f.destinationFor w.state.lane
  arrived : ∀ slot, (w.state.baiter slot).arrived = w.seen slot
  committed : ∀ slot, w.seen slot = true → w.state.committed = true
  recorded : w.recorded = if w.state.arrivalGenerationCaptured then
    some (w.state.arrivedGeneration, w.state.arrivedMechanicKind) else none
  complete : w.state.arrivalGenerationCaptured = true → ∀ slot, w.seen slot = true
  /-- The next route of a slot comes after each one that it had. -/
  next : ∀ a ∈ w.attached, ∀ route,
    Attachment.Later ⟨a.slot, route, w.state.transitionId, (w.state.baiter a.slot).nextRevision⟩ a
  later : w.attached.Pairwise fun a b => a.slot = b.slot → a.Later b

/-- In the committed lane of `w`, `w'` is in the same one. -/
def Steady (w w' : Watched) : Prop :=
  w.state.committed = true → w'.state.committed = true ∧ w'.state.lane = w.state.lane ∧
    w'.state.destination = w.state.destination

theorem Steady.trans (h : Steady w w') (h' : Steady w' w'') : Steady w w'' := by
  intro hcommitted
  obtain ⟨hcommitted', hlane, hdestination⟩ := h hcommitted
  obtain ⟨hcommitted'', hlane', hdestination'⟩ := h' hcommitted'
  exact ⟨hcommitted'', hlane'.trans hlane, hdestination'.trans hdestination⟩

/-- A baiter is written, who has arrived if the slot was seen, and whose revision is not older. -/
theorem Inv.setBaiter (h : Inv f scope w) {b : Baiter}
    (hcommitted : b.arrived = true → w.state.committed = true)
    (hkept : w.seen slot = true → b.arrived = true)
    (hrevision : (w.state.baiter slot).nextRevision ≤ b.nextRevision) :
    Inv f scope { w with
      state := w.state.setBaiter slot b, seen := update w.seen slot b.arrived } := by
  have hself : (w.state.setBaiter slot b).baiter slot = b := update_self _ _ _
  have hother {other : Slot} (hne : other ≠ slot) :
      (w.state.setBaiter slot b).baiter other = w.state.baiter other := update_of_ne hne _ _
  refine ⟨h.scope, h.destination, fun other => ?_, fun other => ?_, h.recorded,
    fun hcaptured other => ?_, fun a ha route => ?_, h.later⟩
  · rcases eq_or_ne other slot with rfl | hne
    · rw [hself]
      exact (update_self other b.arrived w.seen).symm
    · rw [hother hne, h.arrived]
      exact (update_of_ne hne b.arrived w.seen).symm
  · rcases eq_or_ne other slot with rfl | hne
    · exact fun hseen => hcommitted ((update_self _ _ _).symm.trans hseen)
    · exact fun hseen => h.committed other ((update_of_ne hne _ _).symm.trans hseen)
  · have hseen := h.complete hcaptured other
    rcases eq_or_ne other slot with rfl | hne
    · exact (update_self _ _ _).trans (hkept hseen)
    · exact (update_of_ne hne _ _).trans hseen
  · refine (h.next a ha route).imp_right fun ⟨hsame, hlt⟩ => ⟨hsame, hlt.trans_le ?_⟩
    rcases eq_or_ne a.slot slot with heq | hne
    · rw [heq, hself]
      exact hrevision
    · rw [hother hne]

/-- A baiter is written, whose arrival stays as it was. -/
theorem Inv.keepArrived (h : Inv f scope w) {b : Baiter}
    (harrived : b.arrived = (w.state.baiter slot).arrived)
    (hrevision : (w.state.baiter slot).nextRevision ≤ b.nextRevision) :
    Inv f scope { w with state := w.state.setBaiter slot b } := by
  have hseen := harrived.trans (h.arrived slot)
  have hset := h.setBaiter (fun hb => h.committed slot (hseen ▸ hb)) (fun hs => hseen.trans hs)
    hrevision
  rwa [hseen, update_eq_self] at hset

theorem Inv.assignHunter (h : Inv f scope w) (hunter : ObjectGuid) :
    Inv f scope { w with state := w.state.assignHunter hunter } := by
  unfold MagmawLaneTransitionState.assignHunter
  dsimp only
  split
  · exact h.keepArrived rfl (Nat.le_refl _)
  · exact h

theorem Inv.assignMage (h : Inv f scope w) (mage : ObjectGuid) :
    Inv f scope { w with state := w.state.assignMage mage } := by
  unfold MagmawLaneTransitionState.assignMage handOffMage
  dsimp only
  split_ifs
  · exact h.keepArrived rfl (Nat.le_refl _)
  · exact h.keepArrived rfl (Nat.le_refl _)
  · exact h

/-- Only what is kept of the slots is written. -/
theorem assign_frame (state : MagmawLaneTransitionState) (mage hunter : ObjectGuid) :
    ∃ baiter, (state.assignHunter hunter).assignMage mage = { state with baiter } := by
  unfold assignMage assignHunter
  dsimp only
  split_ifs <;> exact ⟨_, rfl⟩

theorem Inv.observeRouteProgress (h : Inv f scope w) (slot : Slot) (position : Vector3) :
    Inv f scope { w with state := w.state.observeRouteProgress slot position } := by
  unfold MagmawLaneTransitionState.observeRouteProgress
  dsimp only
  split
  · exact h
  · exact h.keepArrived rfl (Nat.le_refl _)

theorem observeRouteProgress_frame (state : MagmawLaneTransitionState) (slot : Slot)
    (position : Vector3) :
    ∃ baiter, state.observeRouteProgress slot position = { state with baiter } := by
  unfold observeRouteProgress
  dsimp only
  split_ifs <;> exact ⟨_, rfl⟩

theorem observeArrival_frame (state : MagmawLaneTransitionState) (slot : Slot)
    (position : Vector3) :
    ∃ baiter, state.observeArrival slot position = { state with baiter } := by
  obtain ⟨baiter, hprogress⟩ := observeRouteProgress_frame state slot position
  unfold observeArrival
  rw [hprogress]
  dsimp only
  split_ifs <;> exact ⟨_, rfl⟩

/-! ### Routes -/

theorem build_spec {destination : Vector3} (h : f.build call destination = some route) :
    route ≠ [] ∧ route.getLastD {} = destination := by
  unfold Formation.build at h
  split at h
  · cases h
  · obtain ⟨clearance, -, h⟩ := exists_of_findSome?_eq_some h
    split at h
    · cases h
      exact ⟨cons_ne_nil _ _, rfl⟩
    · obtain ⟨waypoints, -, rfl⟩ := mem_map.mp (mem_of_find?_eq_some h)
      exact ⟨cons_ne_nil _ _, rfl⟩

theorem admitRoute_spec {destination : Vector3} (h : f.admitRoute call destination = some route) :
    route ≠ [] ∧ route.getLastD {} = destination := by
  unfold Formation.admitRoute at h
  split at h
  · exact build_spec h
  · cases h

theorem nextRevision_attach (b : Baiter) (hroute : route ≠ []) :
    (b.attach route).nextRevision = b.nextRevision + 1 :=
  if_neg (by simpa [Baiter.attach] using hroute)

/-- A route to the destination of the lane is attached. -/
theorem Inv.attach (h : Inv f scope w) (hroute : route ≠ [])
    (hlast : w.state.committed = true → route.getLastD {} = w.state.destination) (slot : Slot) :
    Inv f scope (w.attach slot route) := by
  have hself : (w.attach slot route).state.baiter slot = (w.state.baiter slot).attach route :=
    update_self _ _ _
  have hattached : (w.attach slot route).attached =
      ⟨slot, route, w.state.transitionId, (w.state.baiter slot).nextRevision⟩ :: w.attached :=
    congrArg (fun b => Attachment.mk slot route w.state.transitionId (Baiter.routeRevision b) ::
      w.attached) hself
  have hset : Inv f scope { w with
      state := w.state.setBaiter slot ((w.state.baiter slot).attach route) } :=
    h.keepArrived rfl ((Nat.le_succ _).trans_eq (nextRevision_attach _ hroute).symm)
  refine { hset with
    destination := fun hcommitted => (hlast hcommitted).trans (h.destination hcommitted)
    next := fun a ha route' => ?_
    later := ?_ }
  · rw [hattached] at ha
    rcases mem_cons.mp ha with rfl | ha
    · refine .inr ⟨rfl, ?_⟩
      rw [hself, nextRevision_attach _ hroute]
      exact Nat.lt_succ_self _
    · exact hset.next a ha route'
  · rw [hattached]
    refine pairwise_cons.mpr ⟨fun a ha (hslot : slot = a.slot) => ?_, h.later⟩
    subst hslot
    exact h.next a ha route

/-- A lane is committed, with its first route. -/
theorem Inv.begin (h : Inv f scope w) {direction : Direction} (hroute : route ≠ [])
    (hlast : route.getLastD {} = f.destinationFor direction) (slot : Slot) :
    Inv f scope (w.begin call direction slot route) := by
  refine Inv.attach ?_ hroute (fun _ => rfl) slot
  refine ⟨h.scope, fun _ => hlast, fun _ => rfl, fun _ _ => rfl, rfl, nofun, fun a ha route => ?_,
    h.later⟩
  refine .inl (Nat.lt_succ_of_le ?_)
  rcases h.next a ha route with hlt | ⟨heq, -⟩
  · exact Nat.le_of_lt hlt
  · exact Nat.le_of_eq heq

theorem steady_attach (hlast : w.state.committed = true → route.getLastD {} = w.state.destination)
    (slot : Slot) : Steady w (w.attach slot route) :=
  fun hcommitted => ⟨hcommitted, rfl, hlast hcommitted⟩

/-! ### Observations -/

theorem isArrived_iff (h : Inv f scope w) :
    w.state.isArrived = true ↔ ∀ slot, w.seen slot = true := by
  rw [isArrived, Bool.and_eq_true, Bool.and_eq_true, h.arrived, h.arrived]
  constructor
  · rintro ⟨⟨-, hmage⟩, hhunter⟩ slot
    cases slot with
    | mage => exact hmage
    | hunter => exact hhunter
  · exact fun hall => ⟨⟨h.committed .mage (hall .mage), hall .mage⟩, hall .hunter⟩

/-- What is seen of a baiter's arrival is what the state has of it. -/
theorem Inv.observeArrival (h : Inv f scope w) (slot : Slot) (position : Vector3) :
    Inv f scope { w with
      state := w.state.observeArrival slot position
      seen :=
        if w.state.committed && reaches position w.state.destination then update w.seen slot true
        else w.seen } := by
  obtain ⟨baiter, hprogress⟩ := observeRouteProgress_frame w.state slot position
  have hkept := h.observeRouteProgress slot position
  unfold MagmawLaneTransitionState.observeArrival
  rw [hprogress] at hkept ⊢
  dsimp only
  split
  · next hreaches =>
    exact hkept.setBaiter (fun _ => (Bool.and_eq_true_iff.mp hreaches).1) (fun _ => rfl)
      (Nat.le_refl _)
  · exact hkept

/-- What is recorded is what was visible when both had arrived. -/
theorem Inv.observe (h : Inv f scope w) (slot : Slot) (call : Call) :
    Inv f scope (w.observe slot call) := by
  have harrival := h.observeArrival slot call.position
  have harrived := isArrived_iff harrival
  unfold Watched.observe
  dsimp only at harrival harrived ⊢
  generalize (if w.state.committed && reaches call.position w.state.destination then
    update w.seen slot true else w.seen) = seen at harrival harrived ⊢
  generalize w.state.observeArrival slot call.position = state at harrival harrived ⊢
  have hseen : (seen .mage && seen .hunter) = state.isArrived := by
    rw [Bool.eq_iff_iff, harrived, Bool.and_eq_true]
    exact ⟨fun ⟨hmage, hhunter⟩ other => Slot.casesOn other hmage hhunter,
      fun hall => ⟨hall .mage, hall .hunter⟩⟩
  have hrecorded : w.recorded = if state.arrivalGenerationCaptured then
    some (state.arrivedGeneration, state.arrivedMechanicKind) else none := harrival.recorded
  rw [hseen]
  unfold recordArrivalGeneration
  cases hcaptured : state.arrivalGenerationCaptured with
  | true =>
    rw [hcaptured, if_pos rfl] at hrecorded
    rw [Bool.not_true, Bool.and_false, hrecorded, Option.some_or, ← hrecorded]
    exact harrival
  | false =>
    rw [hcaptured] at hrecorded
    cases hall : state.isArrived with
    | true =>
      exact { harrival with
        recorded := by rw [hrecorded]; rfl
        complete := fun _ => harrived.mp hall }
    | false =>
      rw [if_neg Bool.false_ne_true, Option.or_none]
      exact harrival

/-- A lane is steady, whatever is observed. -/
theorem steady_observe (w : Watched) (slot : Slot) (call : Call) :
    Steady w (w.observe slot call) := by
  intro hcommitted
  obtain ⟨baiter, harrival⟩ := observeArrival_frame w.state slot call.position
  unfold Watched.observe recordArrivalGeneration
  rw [harrival]
  dsimp only
  split
  · exact ⟨hcommitted, rfl, rfl⟩
  · exact ⟨hcommitted, rfl, rfl⟩

/-- An arrived lane that is retired was arrived, and recorded, before the call. -/
theorem retired_spec (h : Inv f scope w)
    (hretired : (w.observe slot call).state.generationRetired call = true) :
    (∀ other, w.seen other = true) ∧
      ∃ r, w.recorded = some r ∧ r ≠ (call.generation, call.kind) := by
  obtain ⟨baiter, harrival⟩ := observeArrival_frame w.state slot call.position
  unfold Watched.observe recordArrivalGeneration at hretired
  rw [harrival] at hretired
  dsimp only at hretired
  split at hretired
  · simp [generationRetired] at hretired
  · simp only [generationRetired, Bool.and_eq_true] at hretired
    obtain ⟨⟨-, hcaptured⟩, hdiffers⟩ := hretired
    refine ⟨h.complete hcaptured, _, h.recorded.trans (if_pos hcaptured), fun heq => ?_⟩
    rw [(Prod.mk.inj heq).1, (Prod.mk.inj heq).2] at hdiffers
    simp at hdiffers

/-! ### A call -/

/-- The lane flips: both slots were seen at the destination, and what is visible is not what was
recorded then. -/
structure Flips (f : Formation) (call : Call) (w w' : Watched) : Prop where
  seen : ∀ slot, w.seen slot = true
  recorded : ∃ r, w.recorded = some r ∧ r ≠ (call.generation, call.kind)
  committed : w'.state.committed = true
  lane : w'.state.lane = w.state.lane.opposite
  destination : w'.state.destination = f.destinationFor w'.state.lane

/-- A bot that joins a lane keeps it, and one that opens a lane finds none. -/
theorem Inv.join (h : Inv f scope w) (call : Call) (slot : Slot) :
    Inv f scope (w.join f scope call slot) ∧ Steady w (w.join f scope call slot) := by
  have hrefl : Inv f scope w ∧ Steady w w := ⟨h, fun hcommitted => ⟨hcommitted, rfl, rfl⟩⟩
  unfold Watched.join
  dsimp only
  split
  · next hjoins =>
    have hcommitted : w.state.committed = true := by
      revert hjoins
      cases w.state.committed with
      | true => exact fun _ => rfl
      | false => exact id
    split
    · exact hrefl
    · next route hroute =>
      obtain ⟨hne, hlast⟩ := admitRoute_spec hroute
      split
      · exact ⟨h.attach hne (fun _ => hlast) slot, steady_attach (fun _ => hlast) slot⟩
      · exact ⟨h.begin hne (hlast.trans (h.destination hcommitted)) slot,
          fun _ => ⟨rfl, rfl, hlast⟩⟩
  · split
    · next hopens =>
      have hnone : w.state.committed = false := by simpa using hopens
      refine ⟨?_, fun hcommitted => Bool.noConfusion (hnone.symm.trans hcommitted)⟩
      cases hfound : [f.initialDirection scope call.position,
          (f.initialDirection scope call.position).opposite].findSome? fun direction =>
        (f.admitRoute call (f.destinationFor direction)).map (w.begin call direction slot) with
      | none => exact h
      | some opened =>
        obtain ⟨direction, -, hopened⟩ := exists_of_findSome?_eq_some hfound
        obtain ⟨route, hroute, rfl⟩ := Option.map_eq_some_iff.mp hopened
        obtain ⟨hne, hlast⟩ := admitRoute_spec hroute
        exact h.begin hne hlast slot
    · exact hrefl

/-- A bot follows its route, or another one to the same destination. -/
theorem Inv.follow (h : Inv f scope w) (call : Call) (slot : Slot) :
    Inv f scope (w.follow f call slot).1 ∧ Steady w (w.follow f call slot).1 := by
  have hrefl : Inv f scope w ∧ Steady w w := ⟨h, fun hcommitted => ⟨hcommitted, rfl, rfl⟩⟩
  unfold Watched.follow
  dsimp only
  split
  · exact hrefl
  · split
    · exact hrefl
    · split
      · exact hrefl
      · next route hroute =>
        obtain ⟨hne, hlast⟩ := build_spec hroute
        exact ⟨h.attach hne (fun _ => hlast) slot, steady_attach (fun _ => hlast) slot⟩

/-- A lane is left alone, or retired for the opposite one. -/
theorem Inv.retire (h : Inv f scope w) (hretire : w.retire f call slot = some w') :
    Inv f scope w' ∧ (w' = w ∨ w.state.generationRetired call = true ∧
      w'.state.committed = true ∧ w'.state.lane = w.state.lane.opposite) := by
  unfold Watched.retire at hretire
  split at hretire
  · next hall =>
    obtain ⟨route, hroute, rfl⟩ := Option.map_eq_some_iff.mp hretire
    obtain ⟨hne, hlast⟩ := admitRoute_spec hroute
    exact ⟨h.begin hne hlast slot, .inr ⟨(Bool.and_eq_true_iff.mp hall).2, rfl, rfl⟩⟩
  · cases hretire
    exact ⟨h, .inl rfl⟩

/-- A call leaves the lane as it is, or flips it. -/
theorem Inv.ensured (h : Inv f scope w) (call : Call) :
    Inv f scope (w.step f scope call) ∧
      (Steady w (w.step f scope call) ∨ Flips f call w (w.step f scope call)) := by
  obtain ⟨baiter, hassigned⟩ := assign_frame w.state call.mage call.hunter
  have h₁ := (h.assignHunter call.hunter).assignMage call.mage
  unfold Watched.step Watched.ensureSafeParasiteRoute
  rw [observeScope, if_pos h.scope]
  dsimp only at h₁ ⊢
  rw [hassigned] at h₁ ⊢
  split
  · exact ⟨h₁, .inl fun hcommitted => ⟨hcommitted, rfl, rfl⟩⟩
  · next slot hslot =>
    have h₂ := h₁.observe slot call
    have hsteady₂ := steady_observe { w with state := { w.state with baiter } } slot call
    have hretired := @retired_spec f scope call slot _ h₁
    generalize Watched.observe _ slot call = w₂ at h₂ hsteady₂ hretired
    split
    · exact ⟨h₂, .inl hsteady₂⟩
    · next w₃ hretire =>
      obtain ⟨h₃, hcases⟩ := h₂.retire hretire
      obtain ⟨h₄, hsteady₄⟩ := h₃.join call slot
      obtain ⟨h₅, hsteady₅⟩ := h₄.follow call slot
      refine ⟨h₅, ?_⟩
      rcases hcases with rfl | ⟨hgeneration, hcommitted, hlane⟩
      · exact .inl ((hsteady₂.trans hsteady₄).trans hsteady₅)
      · obtain ⟨hseen, hrecorded⟩ := hretired hgeneration
        obtain ⟨-, hbefore, -⟩ := hsteady₂ (h.committed .mage (hseen .mage))
        obtain ⟨hcommitted', hafter, -⟩ := (hsteady₄.trans hsteady₅) hcommitted
        refine .inr ⟨hseen, hrecorded, hcommitted', ?_, h₅.destination hcommitted'⟩
        exact hafter.trans (hlane.trans (congrArg Direction.opposite hbefore))

/-- The movement generations of two transitions or revisions differ. -/
theorem movementGeneration_inj {a b : Attachment} (ha : a.transitionId < 2 ^ 32)
    (hb : b.transitionId < 2 ^ 32) (h : a.movementGeneration = b.movementGeneration) :
    a.transitionId = b.transitionId ∧ a.revision = b.revision := by
  have hlow {c : Attachment} (hc : c.transitionId < 2 ^ 32) :
      c.movementGeneration % 2 ^ 32 = c.transitionId := by
    rw [Attachment.movementGeneration, Nat.xor_mod_two_pow, Nat.mod_eq_of_lt hc,
      Nat.shiftLeft_eq, Nat.mul_mod_left, Nat.xor_zero]
  have hhigh {c : Attachment} (hc : c.transitionId < 2 ^ 32) :
      c.movementGeneration >>> 32 = c.revision := by
    rw [Attachment.movementGeneration, Nat.shiftRight_xor_distrib, Nat.shiftRight_eq_div_pow,
      Nat.div_eq_of_lt hc, Nat.zero_xor, Nat.shiftLeft_shiftRight]
  exact ⟨(hlow ha).symm.trans (h ▸ hlow hb), (hhigh ha).symm.trans (h ▸ hhigh hb)⟩

/-- The lane is one transition at a time: it leads to its own anchor, until both slots were seen
there and something else than what was recorded then is visible; it is arrived only when both were
seen; and no two routes attached to a slot have one movement generation. -/
structure OneTransition (f : Formation) (scope : Scope) (w : Watched) : Prop where
  change : ∀ call, w.state.committed = true →
    Steady w (w.step f scope call) ∨ Flips f call w (w.step f scope call)
  destination : w.state.committed = true → w.state.destination = f.destinationFor w.state.lane
  arrived : w.state.isArrived = true → ∀ slot, w.seen slot = true
  distinct : (∀ a ∈ w.attached, a.transitionId < 2 ^ 32 ∧ a.revision < 2 ^ 32) →
    w.attached.Pairwise fun a b => a.slot = b.slot → a.movementGeneration ≠ b.movementGeneration

theorem Inv.oneTransition (h : Inv f scope w) : OneTransition f scope w where
  change call _ := (h.ensured call).2
  destination := h.destination
  arrived := (isArrived_iff h).mp
  distinct hsmall := by
    refine h.later.imp_of_mem fun ha hb holder hslot hsame => ?_
    obtain ⟨hid, hrevision⟩ := movementGeneration_inj (hsmall _ ha).1 (hsmall _ hb).1 hsame
    rcases holder hslot with hlt | ⟨-, hlt⟩
    · exact hlt.ne' hid
    · exact hlt.ne' hrevision

theorem inv_start (f : Formation) (scope : Scope) : Inv f scope { state := { scope } } where
  scope := rfl
  destination := nofun
  arrived _ := rfl
  committed := nofun
  recorded := rfl
  complete := nofun
  next := nofun
  later := .nil

/-- The first call of a scope resets nothing but the scope. -/
theorem step_empty (f : Formation) (scope : Scope) (call : Call) :
    Watched.step f scope {} call = Watched.step f scope { state := { scope } } call := by
  have hscope : ({} : MagmawLaneTransitionState).observeScope scope = { scope } := by
    unfold observeScope
    split
    · next heq => exact heq ▸ rfl
    · rfl
  have hkept : ({ scope } : MagmawLaneTransitionState).observeScope scope = { scope } := if_pos rfl
  unfold Watched.step Watched.ensureSafeParasiteRoute
  dsimp only
  rw [hscope, hkept]

/-- In every run of one scope the lane is one transition at a time. -/
theorem run_oneTransition (f : Formation) (scope : Scope) (calls : List Call) :
    OneTransition f scope (StateMachine.run (Watched.step f scope) {} calls) := by
  cases calls with
  | nil =>
    exact ⟨nofun, nofun, nofun, fun _ => .nil⟩
  | cons call calls =>
    rw [StateMachine.run_cons, step_empty, ← StateMachine.run_cons]
    exact (StateMachine.run_invariant (inv_start f scope) (fun _ call h => (h.ensured call).1)
      (call :: calls)).oneTransition

/-- A lane between two anchors. -/
def formation : Formation where
  support := { y := 30 }
  left := { x := -20 }
  right := { x := 20 }
  fullLaneCorridorSafe := true

/-- Both baiters cross to the right, and then there is another generation. -/
def crossing : List Call :=
  [{ guid := 1, mage := 1, hunter := 2, position := { x := -20 }, generation := 7, kind := 2 },
   { guid := 1, mage := 1, hunter := 2, position := { x := 19 }, generation := 7, kind := 2 },
   { guid := 2, mage := 1, hunter := 2, position := { x := 18 }, generation := 7, kind := 2 },
   { guid := 2, mage := 3, hunter := 2, position := { x := 18 }, generation := 8, kind := 2 },
   { guid := 3, mage := 3, hunter := 2, position := { x := 18 }, generation := 8, kind := 2 }]

theorem run_oneTransition_crossing :
    let w := StateMachine.run (Watched.step formation {}) {} crossing
    w.state.lane = .left ∧ w.attached.map Attachment.movementGeneration = [2, 2, 1, 1] ∧
      w.attached.Pairwise fun a b => a.slot = b.slot → a.movementGeneration ≠ b.movementGeneration :=
  ⟨by decide +kernel, by decide +kernel,
    (run_oneTransition formation {} crossing).distinct (by decide +kernel)⟩

end TrinityCore.Magmaw.BaitLane
