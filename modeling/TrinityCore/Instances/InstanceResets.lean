import Mathlib.Algebra.Ring.Nat
import TrinityCore.Lib.MultiMap

/-!
# Instance resets

The queue of the resets of `InstanceSaveMgr.cpp`: individual instances, and for all instances of a
map and difficulty three warnings and the reset. Game times are `time_t`. The history of the
queue's work, which the source does not have, is kept beside it.
-/

namespace TrinityCore.Instances

def MINUTE : Int := 60
def HOUR : Int := 3600
def DAY : Int := 86400

/-- A map and a difficulty, which `MAKE_PAIR32` makes one key of. -/
structure MapDiff where
  mapid : Nat
  difficulty : Nat
  deriving DecidableEq, Repr

/-- `MapDifficulty`, with its key. The scaled reset time is what the rate makes of it, in floating
point. -/
structure MapDifficulty extends MapDiff where
  resetTime : Nat
  scaledResetTime : Nat

/-- The data and the settings of a server. Resets are for maps that have instances. -/
structure ResetConfig where
  mapDifficulties : List MapDifficulty
  resetTimeHour : Nat
  instanceable : Nat → Bool
  keys : (mapDifficulties.map MapDifficulty.toMapDiff).Nodup
  fits : ∀ entry ∈ mapDifficulties, entry.mapid < 2 ^ 16 ∧ entry.difficulty < 2 ^ 8
  maps : ∀ entry ∈ mapDifficulties, entry.resetTime ≠ 0 → instanceable entry.mapid

/-- `InstResetEvent`. -/
structure InstResetEvent where
  type : Nat
  difficulty : Nat
  mapid : Nat
  instanceId : Nat
  deriving DecidableEq, Repr

namespace InstResetEvent

/-- The constructor, with the widths of the fields. -/
def new (type mapid difficulty instanceId : Nat) : InstResetEvent :=
  ⟨type % 2 ^ 8, difficulty % 2 ^ 8, mapid % 2 ^ 16, instanceId % 2 ^ 16⟩

def mapDiff (event : InstResetEvent) : MapDiff := ⟨event.mapid, event.difficulty⟩

/-- `operator==`. -/
def equal (event other : InstResetEvent) : Bool := other.instanceId = event.instanceId

/-- The two are of one instance, or of all instances of one map and difficulty. -/
def Same (event other : InstResetEvent) : Prop :=
  event.mapDiff = other.mapDiff ∧ event.instanceId = other.instanceId

instance (event other : InstResetEvent) : Decidable (event.Same other) :=
  inferInstanceAs (Decidable (_ ∧ _))

/-- An event of all instances of a map and difficulty. -/
def IsGlobal (key : MapDiff) (event : InstResetEvent) : Prop := event.type ≠ 0 ∧ event.mapDiff = key

instance (key : MapDiff) (event : InstResetEvent) : Decidable (event.IsGlobal key) :=
  inferInstanceAs (Decidable (_ ∧ _))

end InstResetEvent

/-- `ResetTimeDelay[type-1]`. -/
def resetTimeDelay (type : Nat) : Int :=
  match type with
  | 1 => 3600
  | 2 => 900
  | 3 => 300
  | _ => 60

namespace ResetConfig

variable (c : ResetConfig)

/-- `GetMapDifficultyData`. -/
def getMapDifficultyData (key : MapDiff) : Option MapDifficulty :=
  c.mapDifficulties.find? (·.toMapDiff = key)

/-- `GetDownscaledMapDifficultyData`: the entry and the difficulty that it has. -/
def getDownscaledMapDifficultyData (key : MapDiff) : Option (MapDifficulty × MapDiff) :=
  let lower : MapDiff :=
    if 1 < key.difficulty then { key with difficulty := key.difficulty - 2 }
    else { key with difficulty := key.difficulty - 1 }
  let lowest : MapDiff := { key with difficulty := lower.difficulty - 1 }
  ((c.getMapDifficultyData key).map (·, key)).or
    (((c.getMapDifficultyData lower).map (·, lower)).or
      ((c.getMapDifficultyData lowest).map (·, lowest)))

/-- The maps and difficulties that have a reset time. -/
def globalResets : List MapDiff :=
  (c.mapDifficulties.filter (·.resetTime ≠ 0)).map MapDifficulty.toMapDiff

/-- The reset delay, at least one day. -/
def period (entry : MapDifficulty) : Int :=
  if (entry.scaledResetTime : Int) < DAY then DAY else entry.scaledResetTime

def diff : Int := c.resetTimeHour * HOUR

/-- `GetSubsequentResetTime`. -/
def getSubsequentResetTime (key : MapDiff) (resetTime : Int) : Int :=
  match c.getMapDifficultyData key with
  | none => 0
  | some entry =>
    if entry.resetTime = 0 then 0
    else (resetTime + MINUTE) / DAY * DAY + period entry + c.diff

end ResetConfig

/-- Why all instances are reset. -/
inductive ResetCause where
  | forced (key : MapDiff)
  | event (due : Int) (event : InstResetEvent)

/-- A reset of all instances of a map and difficulty, and the time of the next one. -/
structure GlobalReset where
  key : MapDiff
  resetTime : Int
  next : Int
  cause : ResetCause

/-- A cancellation: the event that it names, what it takes from the queue, and the queue before and
after it. -/
structure Cancellation where
  named : InstResetEvent
  removed : Option (Int × InstResetEvent)
  before : List (Int × InstResetEvent)
  left : List (Int × InstResetEvent)

/-- The queue before and after the loop takes out what it has processed. -/
structure Taken where
  processed : Int × InstResetEvent
  before : List (Int × InstResetEvent)
  left : List (Int × InstResetEvent)

/-- `InstanceSaveManager` as far as it resets, at a game time. -/
structure InstanceSaveManager where
  queue : MultiMap Int InstResetEvent := MultiMap.empty
  resetTimes : MapDiff → Option Int := fun _ => none
  now : Int
  resets : List GlobalReset := []
  cancelled : List Cancellation := []
  taken : List Taken := []

namespace InstanceSaveManager

/-- `GetResetTimeFor`. -/
def getResetTimeFor (s : InstanceSaveManager) (key : MapDiff) : Int := (s.resetTimes key).getD 0

/-- `InitializeResetTimeFor`, and `SetResetTimeFor` for a key that is there. -/
def setResetTimeFor (s : InstanceSaveManager) (key : MapDiff) (t : Int) : InstanceSaveManager :=
  { s with resetTimes := Function.update s.resetTimes key (some t) }

/-- `ScheduleReset`, to add an event. -/
def scheduleReset (s : InstanceSaveManager) (time : Int) (event : InstResetEvent) :
    InstanceSaveManager :=
  { s with queue := s.queue.insert (time, event) }

/-- `ScheduleReset`, to remove one: the first equal one at its time, or else the first equal one of
the whole queue. -/
def cancelReset (s : InstanceSaveManager) (time : Int) (event : InstResetEvent) :
    InstanceSaveManager :=
  let atTime (x : Int × InstResetEvent) : Bool := x.1 = time && x.2.equal event
  let anywhere (x : Int × InstResetEvent) : Bool := x.2.equal event
  let found : Int × InstResetEvent → Bool :=
    if s.queue.items.any atTime then atTime else anywhere
  let queue := s.queue.eraseFirst found
  { s with
    queue
    cancelled := s.cancelled ++
      [{ named := event
         removed := s.queue.items.find? found
         before := s.queue.items
         left := queue.items }] }

/-- `_ResetOrWarnAll`. -/
def resetOrWarnAll (c : ResetConfig) (s : InstanceSaveManager) (key : MapDiff) (warn : Bool)
    (resetTime : Int) (cause : ResetCause) : InstanceSaveManager :=
  if !c.instanceable key.mapid then s
  else if warn then s
  else
    let next := c.getSubsequentResetTime key resetTime
    if next = 0 then s
    else
      let s := (s.setResetTimeFor key next).scheduleReset (next - 3600)
        (InstResetEvent.new 1 key.mapid key.difficulty 0)
      { s with resets := s.resets ++ [{ key, resetTime, next, cause }] }

/-- `ForceGlobalReset`. -/
def forceGlobalReset (c : ResetConfig) (s : InstanceSaveManager) (key : MapDiff) :
    InstanceSaveManager :=
  match c.getDownscaledMapDifficultyData key with
  | none => s
  | some (_, key) =>
    let s := s.cancelReset 0 (InstResetEvent.new 1 key.mapid key.difficulty 0)
    let s := s.cancelReset 0 (InstResetEvent.new 4 key.mapid key.difficulty 0)
    s.resetOrWarnAll c key false s.now (.forced key)

/-- `m_resetTimeQueue.erase(m_resetTimeQueue.begin())`, after an event has been processed. -/
def eraseBegin (s : InstanceSaveManager) (processed : Int × InstResetEvent) :
    InstanceSaveManager :=
  let queue := s.queue.eraseBegin
  { s with
    queue
    taken := s.taken ++ [{ processed, before := s.queue.items, left := queue.items }] }

/-- One round of the loop of `Update`, for the event at the front. -/
def processFront (c : ResetConfig) (s : InstanceSaveManager) (t : Int) (event : InstResetEvent) :
    InstanceSaveManager :=
  if event.type = 0 then s.eraseBegin (t, event)
  else
    let resetTime := s.getResetTimeFor event.mapDiff
    let s := s.resetOrWarnAll c event.mapDiff (event.type ≠ 4) resetTime (.event t event)
    if event.type ≠ 4 then
      -- the event is changed in the queue, and a copy of it is inserted
      let next := { event with type := event.type + 1 }
      let s := { s with queue := s.queue.modifyBegin fun _ => next }
      (s.scheduleReset (resetTime - resetTimeDelay next.type) next).eraseBegin (t, event)
    else s.eraseBegin (t, event)

/-- `Update`, with a bound on the rounds of its loop. -/
def update (c : ResetConfig) : Nat → InstanceSaveManager → InstanceSaveManager
  | 0, s => s
  | rounds + 1, s =>
    match s.queue.begin? with
    | none => s
    | some (t, event) => if s.now ≤ t then s else update c rounds (s.processFront c t event)

end InstanceSaveManager

/-- A row of `instance`. -/
structure InstanceRow where
  id : Nat
  mapid : Nat
  difficulty : Nat
  resettime : Nat

/-- A row of `instance_reset`. -/
structure ResetRow where
  mapid : Nat
  difficulty : Nat
  resettime : Nat

def InstanceRow.mapDiff (row : InstanceRow) : MapDiff := ⟨row.mapid, row.difficulty⟩

def ResetRow.mapDiff (row : ResetRow) : MapDiff := ⟨row.mapid, row.difficulty⟩

namespace InstanceSaveManager

/-- The first loop of `LoadResetTimes`, over the instances with a reset time. -/
def loadInstanceRow (s : InstanceSaveManager) (row : InstanceRow) : InstanceSaveManager :=
  if s.now < row.resettime then
    s.scheduleReset row.resettime (InstResetEvent.new 0 row.mapid row.difficulty row.id)
  else s

/-- The second loop, over the stored reset times. -/
def loadResetRow (c : ResetConfig) (s : InstanceSaveManager) (row : ResetRow) :
    InstanceSaveManager :=
  match c.getMapDifficultyData row.mapDiff with
  | none => s
  | some _ => s.setResetTimeFor row.mapDiff (row.resettime / DAY * DAY + c.diff)

/-- The reset time that a map and difficulty starts with. -/
def firstResetTime (c : ResetConfig) (s : InstanceSaveManager) (entry : MapDifficulty) : Int :=
  let today := s.now / DAY * DAY
  let period := ResetConfig.period entry
  let stored := s.getResetTimeFor entry.toMapDiff
  let t := if stored = 0 then today + period + c.diff else stored
  if t < s.now then
    t / DAY * DAY + (((today - t / DAY * DAY) / period + 1) * period + c.diff)
  else t

/-- The next warning or reset before a reset time. -/
def firstType (now t : Int) : Nat :=
  if now < t - resetTimeDelay 1 then 1
  else if now < t - resetTimeDelay 2 then 2
  else if now < t - resetTimeDelay 3 then 3
  else 4

/-- The third loop, over the maps and difficulties. -/
def loadMapDifficulty (c : ResetConfig) (instances : List InstanceRow) (s : InstanceSaveManager)
    (entry : MapDifficulty) : InstanceSaveManager :=
  if entry.resetTime = 0 then s
  else
    let t := s.firstResetTime c entry
    let type := firstType s.now t
    let s := (s.setResetTimeFor entry.toMapDiff t).scheduleReset (t - resetTimeDelay type)
      (InstResetEvent.new type entry.mapid entry.difficulty 0)
    (instances.filter (·.mapDiff = entry.toMapDiff)).foldl
      (fun s row => s.scheduleReset (t - resetTimeDelay type)
        (InstResetEvent.new type entry.mapid entry.difficulty row.id)) s

/-- `LoadResetTimes`. -/
def loadResetTimes (c : ResetConfig) (now : Int) (instances : List InstanceRow)
    (rows : List ResetRow) : InstanceSaveManager :=
  let instances := instances.filter (·.resettime ≠ 0)
  let s := instances.foldl loadInstanceRow { now }
  let s := rows.foldl (loadResetRow c) s
  c.mapDifficulties.foldl (loadMapDifficulty c instances) s

end InstanceSaveManager

end TrinityCore.Instances
