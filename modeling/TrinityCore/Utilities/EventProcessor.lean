import TrinityCore.Lib.MultiMap

/-!
# The event processor

`EventProcessor` and the abort states of `BasicEvent`, in small steps: a step begins an operation,
or does a round of the loop of `Update` or `KillAllEvents`. Events are numbered as they are
created. Their virtual functions are parameters: what they do may differ from call to call.
What happens to events is logged. Times are unbounded.
-/

namespace TrinityCore.Utilities

/-- `BasicEvent::AbortState`. -/
inductive AbortState
  | STATE_RUNNING
  | STATE_ABORT_SCHEDULED
  | STATE_ABORTED
  deriving DecidableEq, Repr

/-- `BasicEvent`. -/
structure BasicEvent where
  abortState : AbortState := .STATE_RUNNING
  addTime : Nat := 0
  execTime : Nat := 0
  /-- How many insertions came before the last of this event. -/
  inserted : Nat := 0
  deriving DecidableEq, Repr

/-- What happens to an event. -/
inductive Action
  /-- `Execute`, in which call of `Update`, with the time and place the event had in the queue. -/
  | executed (event update execTime inserted now : Nat)
  | abortScheduled (event : Nat)
  | aborted (event : Nat)
  | destroyed (event : Nat)
  deriving DecidableEq, Repr

/-- What the processor is doing. -/
inductive Mode
  | idle
  | updating
  | killing (force : Bool)
  /-- An assertion has failed. -/
  | crashed
  deriving DecidableEq, Repr

/-- What `Execute` does: it adds events, after some of which it may add its own again. Every
event is added for a later time; the delays start at the next millisecond. -/
structure ExecuteResult where
  added : List Nat
  again : Option Nat
  addedThen : List Nat
  deriving DecidableEq, Repr

/-- The virtual functions of the events, by the number of the call. -/
structure Callbacks where
  execute : Nat → ExecuteResult
  abort : Nat → List Nat
  isDeletable : Nat → Bool

/-- `EventProcessor`. -/
structure EventProcessor where
  time : Nat := 0
  /-- `m_events` before the iterator of `KillAllEvents`; nothing otherwise. -/
  passed : List (Nat × Nat) := []
  /-- `m_events` from there on. -/
  events : List (Nat × Nat) := []
  mode : Mode := .idle
  objects : Nat → BasicEvent := fun _ => {}
  created : Nat := 0
  insertions : Nat := 0
  updates : Nat := 0
  calls : Nat := 0
  log : List Action := []

namespace EventProcessor

variable (s : EventProcessor)

/-- `m_events`. -/
def queue : List (Nat × Nat) := s.passed ++ s.events

/-- `m_events.insert`: behind the pairs whose time is not later. During `KillAllEvents` the
iterator stays where it is. -/
def insertPair (x : Nat × Nat) : EventProcessor :=
  match s.mode, s.events with
  | .killing _, y :: rest =>
    if x.1 < y.1 then { s with passed := insertLast Prod.fst x s.passed }
    else { s with events := insertLast Prod.fst x (y :: rest) }
  | _, _ => { s with events := insertLast Prod.fst x s.events }

/-- `AddEvent`. -/
def addEvent (event eTime : Nat) (setAddtime : Bool) : EventProcessor :=
  let object := s.objects event
  { s with
    objects := Function.update s.objects event { object with
      addTime := if setAddtime then s.time else object.addTime
      execTime := eTime
      inserted := s.insertions }
    insertions := s.insertions + 1 }.insertPair (eTime, event)

/-- `AddEvent` of an event created for it. -/
def addNew (eTime : Nat) : EventProcessor :=
  { s with
    created := s.created + 1
    objects := Function.update s.objects s.created {} }.addEvent s.created eTime true

/-- The events a virtual function adds. -/
def addLater (delays : List Nat) : EventProcessor :=
  delays.foldl (fun s delay => s.addNew (s.time + 1 + delay)) s

/-- `ModifyEventTime`. -/
def modifyEventTime (event newTime : Nat) : EventProcessor :=
  if s.events.any (·.2 == event) then
    { s with
      objects := Function.update s.objects event { s.objects event with
        execTime := newTime, inserted := s.insertions }
      insertions := s.insertions + 1
      events := s.events.eraseP (·.2 == event) }.insertPair (newTime, event)
  else s

/-- `ScheduleAbort`. -/
def scheduleAbort (event : Nat) : EventProcessor :=
  if (s.objects event).abortState ≠ .STATE_RUNNING then { s with mode := .crashed }
  else { s with
    objects := Function.update s.objects event { s.objects event with
      abortState := .STATE_ABORT_SCHEDULED }
    log := s.log ++ [.abortScheduled event] }

/-- `SetAborted`. -/
def setAborted (event : Nat) : EventProcessor :=
  if (s.objects event).abortState = .STATE_ABORTED then { s with mode := .crashed }
  else { s with
    objects := Function.update s.objects event { s.objects event with
      abortState := .STATE_ABORTED } }

/-- `delete`. -/
def destroy (event : Nat) : EventProcessor :=
  { s with log := s.log ++ [.destroyed event] }

section

variable (callbacks : Callbacks)

/-- `Execute`, and the end of the event unless it has added itself again. -/
def execute (s : EventProcessor) (event : Nat) : EventProcessor :=
  let result := callbacks.execute s.calls
  let object := s.objects event
  let s := { s with
    calls := s.calls + 1
    log := s.log ++ [Action.executed event s.updates object.execTime object.inserted s.time] }
  let s := s.addLater result.added
  match result.again with
  | some delay => (s.addEvent event (s.time + 1 + delay) true).addLater result.addedThen
  | none => (s.addLater result.addedThen).destroy event

/-- `Abort`. -/
def abort (s : EventProcessor) (event : Nat) : EventProcessor :=
  { s with
    calls := s.calls + 1
    log := s.log ++ [Action.aborted event] }.addLater (callbacks.abort s.calls)

/-- A round of the loop of `Update`. -/
def updateRound (s : EventProcessor) : EventProcessor :=
  match s.events with
  | [] => { s with mode := .idle }
  | (eTime, event) :: rest =>
    if eTime ≤ s.time then
      let s := { s with events := rest }
      if (s.objects event).abortState = .STATE_RUNNING then s.execute callbacks event
      else
        let s :=
          if (s.objects event).abortState = .STATE_ABORT_SCHEDULED then
            (s.abort callbacks event).setAborted event
          else s
        let deletable := callbacks.isDeletable s.calls
        let s := { s with calls := s.calls + 1 }
        if deletable then s.destroy event else s.addEvent event (s.time + 1) false
    else { s with mode := .idle }

/-- A round of the loop of `KillAllEvents`. -/
def killRound (s : EventProcessor) (force : Bool) : EventProcessor :=
  match s.events with
  | [] =>
    if force then { s with passed := [], mode := .idle }
    else { s with passed := [], events := s.passed, mode := .idle }
  | (_, event) :: _ =>
    let s :=
      if (s.objects event).abortState ≠ .STATE_ABORTED then
        (s.setAborted event).abort callbacks event
      else s
    let deletable := callbacks.isDeletable s.calls
    let s := { s with calls := s.calls + 1 }
    if !force && !deletable then
      { s with passed := s.passed ++ s.events.take 1, events := s.events.tail }
    else
      let s := s.destroy event
      if force then { s with passed := s.passed ++ s.events.take 1, events := s.events.tail }
      else { s with events := s.events.tail }

/-- The operations, and a round of the one that goes on. -/
inductive Operation
  | addEvent (eTime : Nat)
  | modifyEventTime (event newTime : Nat)
  | scheduleAbort (event : Nat)
  | update (pTime : Nat)
  | killAllEvents (force : Bool)
  | round
  deriving DecidableEq, Repr

/-- One step. While an operation goes on only its rounds are steps. -/
def step (s : EventProcessor) (operation : Operation) : EventProcessor :=
  match s.mode, operation with
  | .idle, .addEvent eTime => s.addNew eTime
  | .idle, .modifyEventTime event newTime => s.modifyEventTime event newTime
  | .idle, .scheduleAbort event => s.scheduleAbort event
  | .idle, .update pTime =>
    { s with time := s.time + pTime, updates := s.updates + 1, mode := .updating }
  | .idle, .killAllEvents force => { s with mode := .killing force }
  | .updating, .round => s.updateRound callbacks
  | .killing force, .round => s.killRound callbacks force
  | _, _ => s

end

/-- `ScheduleAbort` is called on events that exist and run. -/
def Fits : Operation → Prop
  | .scheduleAbort event => s.mode = .idle → event < s.created ∧ .destroyed event ∉ s.log ∧
      (s.objects event).abortState = .STATE_RUNNING
  | _ => True

end EventProcessor

end TrinityCore.Utilities
