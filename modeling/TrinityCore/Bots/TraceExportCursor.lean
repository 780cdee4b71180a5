import Mathlib.Algebra.Ring.Nat
import TrinityCore.Lib.StateMachine

/-!
# Decision-trace retention and the export cursor

`BotWorldTraceExportCursor.h`: trimming of the retained trace and the transition
one export poll makes, with the two callers that share the trace and the cursor:
`RecordDecisionTrace` (`BotWorldPopulationMgrDecisionTrace.cpp`) appends and trims,
the status exporter (`BotWorldPopulationMgrStatus.cpp`) polls and moves the cursor.
Sequences are natural numbers; the one 64-bit limit the code tests is kept.
-/

namespace TrinityCore.Bots.WorldTrace

/-- `ExportedTraceTail`: exported entries kept for interactive reading. -/
def exportedTraceTail : Nat := 128

/-- `PendingTraceCapacity`: hard cap on entries that were never exported. -/
def pendingTraceCapacity : Nat := 4096

/-- `std::numeric_limits<std::uint64_t>::max()`. -/
def uint64Max : Nat := 2 ^ 64 - 1

/-- A retained entry: its `Sequence` and everything else it records. -/
structure TraceEntry (β : Type) where
  sequence : Nat
  body : β
  deriving DecidableEq, Repr

variable {β : Type}

/-- `std::upper_bound` on the retained entries: the first one past the cursor. -/
def upperBound (entries : List (TraceEntry β)) (cursor : Nat) : Nat :=
  entries.findIdx fun entry => decide (cursor < entry.sequence)

/-- The loop `while (exported > ExportedTraceTail)`: drop exported entries off the front. -/
def popExported : List (TraceEntry β) → Nat → List (TraceEntry β) × Nat
  | [], exported => ([], exported)
  | entry :: rest, exported =>
    if exported > exportedTraceTail then popExported rest (exported - 1)
    else (entry :: rest, exported)

/-- `TrimExportedTrace`: shorten the exported tail, then erase the oldest pending
entries above the cap. -/
def trimExportedTrace (entries : List (TraceEntry β)) (exportedCursor : Nat) :
    List (TraceEntry β) :=
  let (kept, exported) := popExported entries (upperBound entries exportedCursor)
  let pending := kept.length - exported
  if pending > pendingTraceCapacity then
    kept.take exported ++ kept.drop (exported + pending - pendingTraceCapacity)
  else kept

/-- `ExportCursorTransition`. -/
structure ExportCursorTransition where
  cursorBefore : Nat := 0
  cursorAfter : Nat := 0
  firstEntryIndex : Nat := 0
  entryCount : Nat := 0
  pendingEntryCount : Nat := 0
  hasDiscontinuity : Bool := false
  missingSequenceStart : Nat := 0
  missingSequenceEnd : Nat := 0
  oldestRetainedSequence : Nat := 0
  newestRetainedSequence : Nat := 0
  deriving DecidableEq, Repr

/-- The gap check of `BuildExportCursorTransition` before its counting loop. -/
def noteDiscontinuity (expectedFirst firstRetained newestRetained : Nat)
    (transition : ExportCursorTransition) : ExportCursorTransition :=
  if firstRetained > expectedFirst then
    { transition with
      hasDiscontinuity := true
      missingSequenceStart := expectedFirst
      missingSequenceEnd := firstRetained - 1
      oldestRetainedSequence := firstRetained
      newestRetainedSequence := newestRetained }
  else transition

/-- The counting loop of `BuildExportCursorTransition` from its current index on: stop at
the limit or where the next retained sequence does not continue `previous`. -/
def countEntries (limit : Nat) :
    List Nat → Nat → ExportCursorTransition → ExportCursorTransition
  | [], _, transition => transition
  | sequence :: rest, previous, transition =>
    if transition.entryCount < limit then
      if transition.entryCount ≠ 0 ∧ (previous = uint64Max ∨ sequence ≠ previous + 1) then
        transition
      else countEntries limit rest sequence
        { transition with
          cursorAfter := sequence, entryCount := transition.entryCount + 1 }
    else transition

/-- `BuildExportCursorTransition`. -/
def buildExportCursorTransition (retainedSequences : List Nat) (cursor : Nat)
    (cursorInitialized : Bool) (limit : Nat) : ExportCursorTransition :=
  let firstEntryIndex := retainedSequences.findIdx fun sequence => decide (cursor < sequence)
  let transition : ExportCursorTransition :=
    { cursorBefore := cursor
      cursorAfter := cursor
      firstEntryIndex := firstEntryIndex
      oldestRetainedSequence := retainedSequences.headD 0
      newestRetainedSequence := retainedSequences.getLastD 0 }
  match retainedSequences.drop firstEntryIndex with
  | [] => transition
  | firstRetained :: rest =>
    let expectedFirst := if cursorInitialized then cursor + 1 else 1
    let transition := noteDiscontinuity expectedFirst firstRetained
      (retainedSequences.getLastD 0) transition
    let transition := countEntries limit (firstRetained :: rest) 0 transition
    { transition with
      pendingEntryCount :=
        retainedSequences.length - transition.firstEntryIndex - transition.entryCount }

/-- What the recorder and the exporter of one bot share: `DecisionTrace`,
`TraceSequence` and the bot's entry of `TraceExportCursorByGuid`. -/
structure ExportState (β : Type) where
  decisionTrace : List (TraceEntry β) := []
  traceSequence : Nat := 0
  traceExportCursor : Option Nat := none
  deriving Repr

/-- The appending path of `RecordDecisionTrace`. -/
def recordDecisionTrace (state : ExportState β) (body : β) : ExportState β :=
  let exportedCursor := state.traceExportCursor.getD 0
  let entry : TraceEntry β := ⟨state.traceSequence + 1, body⟩
  { state with
    traceSequence := state.traceSequence + 1
    decisionTrace := trimExportedTrace (state.decisionTrace ++ [entry]) exportedCursor }

/-- What one poll tells its reader. -/
structure ExportReport (β : Type) where
  transition : ExportCursorTransition
  entries : List (TraceEntry β)
  deriving Repr

/-- The delta branch of the status exporter: hand out `EntryCount` entries from
`FirstEntryIndex` and, if that moved it, store the cursor. -/
def exportTrace (state : ExportState β) (limit : Nat) : ExportState β × ExportReport β :=
  let cursor := state.traceExportCursor.getD 0
  let transition := buildExportCursorTransition (state.decisionTrace.map (·.sequence))
    cursor state.traceExportCursor.isSome limit
  let entries := (state.decisionTrace.drop transition.firstEntryIndex).take transition.entryCount
  let state :=
    if transition.entryCount ≠ 0 ∧ transition.cursorAfter ≠ transition.cursorBefore then
      { state with traceExportCursor := some transition.cursorAfter }
    else state
  (state, ⟨transition, entries⟩)

end TrinityCore.Bots.WorldTrace
