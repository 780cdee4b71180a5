import TrinityCore.Lib.MultiMap

/-!
# The event map

`EventMap`: the timed events of a creature script, in a multimap from the time of an event to a
word that packs its id, group and phase. Times are `uint32`. The overloads with durations and
the random ones call those here.
-/

namespace TrinityCore.Utilities

/-- `uint32` addition. -/
def addU32 (a b : Nat) : Nat := (a + b) % 4294967296

/-- The word `ScheduleEvent` stores for an event. -/
def packEvent (eventId group phase : Nat) : Nat :=
  let eventId := if group ≠ 0 ∧ group ≤ 8 then eventId ||| 1 <<< (group + 15) else eventId
  let eventId := if phase ≠ 0 ∧ phase ≤ 8 then eventId ||| 1 <<< (phase + 23) else eventId
  eventId

/-- `EventMap`. -/
structure EventMap where
  time : Nat := 0
  /-- The active phases, a bit each. -/
  phase : Nat := 0
  lastEvent : Nat := 0
  eventMap : MultiMap Nat Nat := .empty

namespace EventMap

variable (m : EventMap)

/-- `Reset`. -/
def reset : EventMap := { m with eventMap := .empty, time := 0, phase := 0 }

/-- `Update`. -/
def update (time : Nat) : EventMap := { m with time := addU32 m.time time }

/-- `SetPhase`. -/
def setPhase (phase : Nat) : EventMap :=
  if phase = 0 then { m with phase := 0 }
  else if phase ≤ 8 then { m with phase := 1 <<< (phase - 1) }
  else m

/-- `AddPhase`. -/
def addPhase (phase : Nat) : EventMap :=
  if phase ≠ 0 ∧ phase ≤ 8 then { m with phase := m.phase ||| 1 <<< (phase - 1) } else m

/-- `RemovePhase`. -/
def removePhase (phase : Nat) : EventMap :=
  if phase ≠ 0 ∧ phase ≤ 8 then { m with phase := m.phase &&& (0xFF ^^^ 1 <<< (phase - 1)) } else m

/-- `ScheduleEvent`. -/
def scheduleEvent (eventId time group phase : Nat) : EventMap :=
  { m with eventMap := m.eventMap.insert (addU32 m.time time, packEvent eventId group phase) }

/-- `CancelEvent`. -/
def cancelEvent (eventId : Nat) : EventMap :=
  { m with eventMap := m.eventMap.filter fun x => !(eventId == x.2 &&& 0xFFFF) }

/-- `RescheduleEvent`. -/
def rescheduleEvent (eventId time group phase : Nat) : EventMap :=
  (m.cancelEvent eventId).scheduleEvent eventId time group phase

/-- `Repeat`. -/
def repeatEvent (time : Nat) : EventMap :=
  { m with eventMap := m.eventMap.insert (addU32 m.time time, m.lastEvent) }

/-- The event has phases, and none of them is active. -/
def outOfPhase (event : Nat) : Bool :=
  m.phase ≠ 0 && event &&& 0xFF000000 ≠ 0 && event >>> 24 &&& m.phase = 0

/-- `ExecuteEvent`. -/
def executeEvent (m : EventMap) : Nat × EventMap :=
  match _h : m.eventMap.items with
  | [] => (0, m)
  | (time, event) :: _ =>
    if time > m.time then (0, m)
    else if m.outOfPhase event then executeEvent { m with eventMap := m.eventMap.eraseBegin }
    else (event &&& 0xFFFF, { m with lastEvent := event, eventMap := m.eventMap.eraseBegin })
termination_by m.eventMap.items.length
decreasing_by
  rw [MultiMap.items_eraseBegin, _h]
  exact Nat.lt_succ_self _

/-- `DelayEvents` of all events. -/
def delayEvents (delay : Nat) : EventMap :=
  { m with time := if delay < m.time then m.time - delay else 0 }

/-- `DelayEvents` of a group. -/
def delayEventsGroup (delay group : Nat) : EventMap :=
  if group = 0 ∨ group > 8 then m
  else
    let inGroup (x : Nat × Nat) : Bool := x.2 &&& 1 <<< (group + 15) ≠ 0
    let delayed := MultiMap.empty.insertAll
      ((m.eventMap.items.filter inGroup).map fun x => (addU32 x.1 delay, x.2))
    { m with eventMap := (m.eventMap.filter (!inGroup ·)).insertAll delayed.items }

/-- `CancelEventGroup`. -/
def cancelEventGroup (group : Nat) : EventMap :=
  if group = 0 ∨ group > 8 then m
  else { m with eventMap := m.eventMap.filter fun x => !(x.2 &&& 1 <<< (group + 15) ≠ 0) }

/-- What is called on an event map. -/
inductive Call
  | reset
  | update (time : Nat)
  | setPhase (phase : Nat)
  | addPhase (phase : Nat)
  | removePhase (phase : Nat)
  | scheduleEvent (eventId time group phase : Nat)
  | rescheduleEvent (eventId time group phase : Nat)
  | repeatEvent (time : Nat)
  | executeEvent
  | delayEvents (delay : Nat)
  | delayEventsGroup (delay group : Nat)
  | cancelEvent (eventId : Nat)
  | cancelEventGroup (group : Nat)
  deriving DecidableEq, Repr

/-- One call, beside the ids that `ExecuteEvent` has returned. -/
def step (s : EventMap × List Nat) : Call → EventMap × List Nat
  | .reset => (s.1.reset, s.2)
  | .update time => (s.1.update time, s.2)
  | .setPhase phase => (s.1.setPhase phase, s.2)
  | .addPhase phase => (s.1.addPhase phase, s.2)
  | .removePhase phase => (s.1.removePhase phase, s.2)
  | .scheduleEvent eventId time group phase => (s.1.scheduleEvent eventId time group phase, s.2)
  | .rescheduleEvent eventId time group phase =>
    (s.1.rescheduleEvent eventId time group phase, s.2)
  | .repeatEvent time => (s.1.repeatEvent time, s.2)
  | .executeEvent => (s.1.executeEvent.2, s.2 ++ [s.1.executeEvent.1])
  | .delayEvents delay => (s.1.delayEvents delay, s.2)
  | .delayEventsGroup delay group => (s.1.delayEventsGroup delay group, s.2)
  | .cancelEvent eventId => (s.1.cancelEvent eventId, s.2)
  | .cancelEventGroup group => (s.1.cancelEventGroup group, s.2)

end EventMap

end TrinityCore.Utilities
