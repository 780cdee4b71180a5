import Mathlib.Data.List.Sort
import TrinityCore.Lib.StateMachine

/-!
# Guild logs

`LogHolder` of `Guild.cpp`: the log of a guild or of one of its bank tabs in memory, and its rows
in the database, a ring of as many rows as the log may have events. A restart loads the log again
from the rows, as `GuildMgr::LoadGuilds` does.
-/

namespace TrinityCore.Guilds

/-- `LogEntry`, with what an event of its kind says. -/
structure LogEntry (Event : Type) where
  guid : Nat
  timestamp : Nat
  event : Event
  deriving DecidableEq, Repr

/-- `LogHolder`; no `nextGUID` is `GUILD_EVENT_LOG_GUID_UNDEFINED`. -/
structure LogHolder (Event : Type) where
  log : List (LogEntry Event) := []
  maxRecords : Nat
  nextGUID : Option Nat := none

variable {Event : Type}

namespace LogHolder

variable (holder : LogHolder Event)

/-- `CanInsert`. -/
def canInsert : Bool := holder.log.length < holder.maxRecords

/-- `LoadEvent`. -/
def loadEvent (entry : LogEntry Event) : LogHolder Event :=
  { holder with
    nextGUID := some (holder.nextGUID.getD entry.guid)
    log := entry :: holder.log }

/-- `AddEvent`, in memory. -/
def addEvent (entry : LogEntry Event) : LogHolder Event :=
  { holder with
    log := (if holder.maxRecords ≤ holder.log.length then holder.log.tail else holder.log) ++
      [entry] }

/-- What `GetNextGUID` returns and stores. -/
def getNextGUID : Nat :=
  match holder.nextGUID with
  | none => 0
  | some guid => (guid + 1) % holder.maxRecords

end LogHolder

/-- `SaveToDB`: the row of the id is deleted, and then inserted. -/
def saveToDB (rows : List (LogEntry Event)) (entry : LogEntry Event) : List (LogEntry Event) :=
  rows.filter (fun row => row.guid ≠ entry.guid) ++ [entry]

/-- `ORDER BY TimeStamp DESC, LogGuid DESC`. -/
def loadsBefore (row row' : LogEntry Event) : Prop :=
  row'.timestamp < row.timestamp ∨ row'.timestamp = row.timestamp ∧ row'.guid ≤ row.guid

instance : DecidableRel (@loadsBefore Event) := fun _ _ =>
  inferInstanceAs (Decidable (_ ∨ _))

/-- The loading of the log, from rows that are not beyond its limit. -/
def loadLog (maxRecords : Nat) (rows : List (LogEntry Event)) : LogHolder Event :=
  ((rows.filter fun row => row.guid ≤ maxRecords).mergeSort fun row row' =>
    decide (loadsBefore row row')).foldl
      (fun holder row => if holder.canInsert then holder.loadEvent row else holder)
      { maxRecords }

/-- A log, with its rows and all events that were ever added to it. -/
structure GuildLog (Event : Type) where
  holder : LogHolder Event
  rows : List (LogEntry Event) := []
  history : List (LogEntry Event) := []

/-- What happens to a log. -/
inductive LogStep (Event : Type) where
  | add (timestamp : Nat) (event : Event)
  | restart

def GuildLog.step (s : GuildLog Event) : LogStep Event → GuildLog Event
  | .add timestamp event =>
    let entry : LogEntry Event := ⟨s.holder.getNextGUID, timestamp, event⟩
    { holder := { s.holder with nextGUID := some entry.guid }.addEvent entry
      rows := saveToDB s.rows entry
      history := s.history ++ [entry] }
  | .restart => { s with holder := loadLog s.holder.maxRecords s.rows }

/-- A log before its first event. -/
def newLog (maxRecords : Nat) : GuildLog Event := { holder := { maxRecords } }

/-- The last events, as many as the log may have. -/
def GuildLog.lastEvents (s : GuildLog Event) : List (LogEntry Event) :=
  s.history.drop (s.history.length - s.holder.maxRecords)

/-- The log has the last events, oldest first, and the next event overwrites the row of the oldest
one, or takes a row of its own where there is still room. -/
structure GuildLog.Survives (s : GuildLog Event) : Prop where
  log : s.holder.log = s.lastEvents
  oldest : ∀ entry rest, s.lastEvents = entry :: rest →
    s.lastEvents.length = s.holder.maxRecords → s.holder.getNextGUID = entry.guid
  room : s.lastEvents.length < s.holder.maxRecords → ∀ row ∈ s.rows, row.guid ≠ s.holder.getNextGUID

/-- Times do not go back. -/
def LogStep.InTime (s : GuildLog Event) : LogStep Event → Prop
  | .add timestamp _ => ∀ entry ∈ s.history, entry.timestamp ≤ timestamp
  | .restart => True

/-- At a restart, of two of the last events in one second the later one has the greater id. -/
def LogStep.Ordered (s : GuildLog Event) : LogStep Event → Prop
  | .add _ _ => True
  | .restart => s.lastEvents.Pairwise fun entry later =>
      entry.timestamp = later.timestamp → entry.guid < later.guid

end TrinityCore.Guilds
