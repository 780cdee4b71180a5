import Std.Data.ExtTreeMap.Lemmas
import TrinityCore.Lib.PriorityQueue

/-!
# The spell queue

`BotSpellQueue.h` and `BotSpellQueue.cpp`: pending intents ordered by release time,
with lazily discarded superseded entries. Times keep the source's fixed widths;
counters that only grow by one are natural numbers.
-/

namespace TrinityCore.Bots.SpellQueue

/-- `MaxWaitMs`. -/
def maxWaitMs : UInt64 := 3000

/-- `CombatDecisionIntervalMs`. -/
def combatDecisionIntervalMs : UInt64 := 100

/-- `PausedReleaseGapMs`. -/
def pausedReleaseGapMs : UInt64 := 5 * combatDecisionIntervalMs

/-- `Entry`: one queued intent. -/
structure Entry where
  key : String
  reason : String
  priority : UInt8
  readyAtMs : UInt64
  queuedAtMs : UInt64
  serial : Nat
  deriving DecidableEq, Repr

/-- `ReleasedLater`: less means released later, or together with a lower priority. -/
def releasedLater (left right : Entry) : Bool :=
  if left.readyAtMs ≠ right.readyAtMs then decide (left.readyAtMs > right.readyAtMs)
  else if left.priority ≠ right.priority then decide (left.priority < right.priority)
  else decide (left.serial > right.serial)

/-- The comparison is a strict weak order, as `std::priority_queue` requires. -/
instance : StrictWeakOrder releasedLater where
  asymm a b := by grind [releasedLater]
  negTrans a b c := by grind [releasedLater]

/-- `Queue`. -/
structure Queue where
  pending : PriorityQueue releasedLater := PriorityQueue.empty
  currentSerialByKey : Std.ExtTreeMap String Nat := ∅
  nextSerial : Nat := 0
  scheduled : Nat := 0
  released : Nat := 0
  releasedAfterPause : Nat := 0
  lastReleaseCheckMs : UInt64 := 0
  totalReleaseLatencyMs : UInt64 := 0
  maxReleaseLatencyMs : UInt64 := 0
  lastReleasedKey : String := ""
  lastReleasedReason : String := ""

namespace Queue

variable (q : Queue)

/-- `Queue::IsCurrent`: the entry is the latest one scheduled for its key. -/
def isCurrent (entry : Entry) : Bool :=
  q.currentSerialByKey[entry.key]? == some entry.serial

/-- `Queue::DropSuperseded`: drain the heap and push back what is current. -/
def dropSuperseded : Queue :=
  let current := q.pending.items.filter q.isCurrent
  { q with pending := PriorityQueue.empty.pushAll current }

/-- The release time `Schedule` stores: the requested one, not before now and at most
`MaxWaitMs` ahead. -/
def clampReadyAtMs (readyAtMs nowMs : UInt64) : UInt64 :=
  min (max readyAtMs nowMs) (nowMs + maxWaitMs)

/-- `Queue::Schedule`. -/
def schedule (key reason : String) (priority : UInt8) (readyAtMs nowMs : UInt64) : Queue :=
  let entry : Entry :=
    { key := key
      reason := reason
      priority := priority
      readyAtMs := clampReadyAtMs readyAtMs nowMs
      queuedAtMs := nowMs
      serial := q.nextSerial + 1 }
  let q :=
    { q with
      nextSerial := q.nextSerial + 1
      currentSerialByKey := q.currentSerialByKey.insert key entry.serial
      pending := q.pending.push entry
      scheduled := q.scheduled + 1 }
  if q.pending.size > 4 * q.currentSerialByKey.size + 8 then q.dropSuperseded else q

/-- Bookkeeping of `ReleaseDue` for one current entry on top. -/
def release (top : Entry) (nowMs : UInt64) (resumedAfterPause : Bool) : Queue :=
  let latencyMs := nowMs - top.readyAtMs
  { q with
    released := q.released + 1
    releasedAfterPause :=
      if resumedAfterPause then q.releasedAfterPause + 1 else q.releasedAfterPause
    totalReleaseLatencyMs :=
      if resumedAfterPause then q.totalReleaseLatencyMs
      else q.totalReleaseLatencyMs + latencyMs
    maxReleaseLatencyMs :=
      if resumedAfterPause then q.maxReleaseLatencyMs
      else max q.maxReleaseLatencyMs latencyMs
    lastReleasedKey := top.key
    lastReleasedReason := top.reason
    currentSerialByKey := q.currentSerialByKey.erase top.key }

/-- The loop of `ReleaseDue`; each round pops, so `fuel` rounds suffice for a heap of that
size. The count is the one returned. -/
def releaseLoop (nowMs : UInt64) (resumedAfterPause : Bool) : Nat → Queue → Nat → Queue × Nat
  | 0, q, released => (q, released)
  | fuel + 1, q, released =>
    match q.pending.top? with
    | none => (q, released)
    | some top =>
      if top.readyAtMs ≤ nowMs then
        if q.isCurrent top then
          let q := q.release top nowMs resumedAfterPause
          releaseLoop nowMs resumedAfterPause fuel { q with pending := q.pending.pop }
            (released + 1)
        else
          releaseLoop nowMs resumedAfterPause fuel { q with pending := q.pending.pop } released
      else (q, released)

/-- `Queue::ReleaseDue`. -/
def releaseDue (nowMs : UInt64) : Queue × Nat :=
  let resumedAfterPause :=
    decide (q.lastReleaseCheckMs ≠ 0) && decide (nowMs > q.lastReleaseCheckMs + pausedReleaseGapMs)
  releaseLoop nowMs resumedAfterPause q.pending.size { q with lastReleaseCheckMs := nowMs } 0

/-- The lazy deletion shared by `WakeDelayMs` and `Empty`: pop superseded tops. -/
def discardSuperseded : Queue :=
  { q with pending := q.pending.popWhile fun entry => !q.isCurrent entry }

/-- `Queue::WakeDelayMs`. -/
def wakeDelayMs (nowMs : UInt64) (currentTimerMs : UInt32) : Queue × UInt32 :=
  let q := q.discardSuperseded
  match q.pending.top? with
  | none => (q, currentTimerMs)
  | some top =>
    let delayMs := if top.readyAtMs > nowMs then top.readyAtMs - nowMs else 1
    (q, (max 1 (min currentTimerMs.toUInt64 delayMs)).toUInt32)

/-- `Queue::Clear`. -/
def clear : Queue :=
  if q.pending.isEmpty && q.currentSerialByKey.isEmpty then q
  else { q with pending := PriorityQueue.empty, currentSerialByKey := ∅ }

/-- `Queue::Empty`. -/
def checkEmpty : Queue × Bool :=
  let q := q.discardSuperseded
  (q, q.pending.isEmpty)

end Queue

end TrinityCore.Bots.SpellQueue
