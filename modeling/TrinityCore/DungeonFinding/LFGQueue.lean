import Mathlib.Data.List.Infix
import TrinityCore.DungeonFinding.LFGMgr

/-!
# The dungeon finder's queue

`LFGQueue.h` and `LFGQueue.cpp`: the queued players and groups, the cache of compatible
combinations, whose keys are the guids in decimal with `|` between them, and the search for
combinations that make up a group. What the manager is given, the proposals, is kept in the
state. Waiting times, logs and dumps are left out.
-/

namespace TrinityCore.DungeonFinding

open Std

/-- `LfgCompatibility`, in the order of its values. -/
inductive LfgCompatibility
  | pending
  | incompatiblesWrongGroupSize
  | incompatiblesTooMuchPlayers
  | incompatiblesMultipleLfgGroups
  | incompatiblesHasIgnores
  | incompatiblesNoRoles
  | incompatiblesNoDungeons
  | compatiblesWithLessPlayers
  | compatiblesBadStates
  | compatiblesMatch
  deriving DecidableEq, Repr

/-- `LfgCompatibilityData` -/
structure LfgCompatibilityData where
  compatibility : LfgCompatibility := .pending
  roles : LfgRolesMap := ∅

/-- `LfgQueueData` -/
structure LfgQueueData where
  joinTime : Int
  tanks : UInt8 := 0
  healers : UInt8 := 0
  dps : UInt8 := 0
  dungeons : LfgDungeonSet := ∅
  roles : LfgRolesMap := ∅
  bestCompatible : String := ""

/-- `LfgAnswer` of a new proposal. -/
inductive LfgAnswer
  | pending
  | agree
  deriving DecidableEq, Repr

/-- `LfgProposalPlayer` -/
structure LfgProposalPlayer where
  role : UInt8
  accept : LfgAnswer
  group : ObjectGuid
  deriving DecidableEq, Repr

/-- `LfgProposal`, as `CheckCompatibility` makes it. -/
structure LfgProposal where
  dungeonId : UInt32
  group : ObjectGuid
  leader : ObjectGuid
  cancelTime : Int
  isNew : Bool
  queues : List ObjectGuid
  players : ExtTreeMap ObjectGuid LfgProposalPlayer

/-- `LFGQueue` -/
structure LFGQueue where
  /-- `QueueDataStore` -/
  queueDataStore : ExtTreeMap ObjectGuid LfgQueueData := ∅
  /-- `CompatibleMapStore` -/
  compatibleMapStore : ExtTreeMap String LfgCompatibilityData := ∅
  currentQueueStore : List ObjectGuid := []
  newToQueueStore : List ObjectGuid := []
  /-- What was given to `LFGMgr::AddProposal`. -/
  proposals : List LfgProposal := []

/-- The random numbers of one `CheckCompatibility`: for the list of each length that it looks
at, which dungeon is drawn at each attempt, and whether a player takes the lead. -/
structure Draws where
  dungeon : Nat → Nat → Nat
  lead : Nat → Nat → Bool

/-! ### Keys -/

/-- `GetRawValue` as text. -/
def guidText (guid : ObjectGuid) : String := String.ofList (Nat.toDigits 10 guid.toNat)

/-- `ConcatenateGuids` -/
def concatenateGuids (check : List ObjectGuid) : String :=
  -- need the guids in order to avoid duplicates
  let guids : ExtTreeSet ObjectGuid := ExtTreeSet.ofList check
  String.ofList (['|'].intercalate (guids.toList.map fun guid => (guidText guid).toList))

/-- `std::string::find` finds the text. -/
def findsText (s text : String) : Bool := decide (text.toList <:+: s.toList)

/-- The number of elements of a key, in a byte. -/
def keySize (key : String) : UInt8 := UInt8.ofNat (key.toList.count '|' + 1)

namespace LfgQueueData

variable (store : LfgDungeonStore)

variable (data : LfgQueueData)

/-- The dungeon whose needs are shown: the first of the entry. -/
def firstDungeon : Option LFGDungeonData := data.dungeons.toList.head?.bind store

/-- `InitializeGroupSetup` -/
def initializeGroupSetup : LfgQueueData :=
  match data.firstDungeon store with
  | some dungeon => { data with
      tanks := UInt8.ofNat dungeon.requiredTanks.toNat
      healers := UInt8.ofNat dungeon.requiredHealers.toNat
      dps := UInt8.ofNat dungeon.requiredDamageDealers.toNat }
  | none => { data with tanks := 0, healers := 0, dps := 0 }

/-- A player of the best combination is no longer needed. -/
def takeRole (role : UInt8) : LfgQueueData :=
  if role &&& LfgRole.tank.bit ≠ 0 then { data with tanks := data.tanks - 1 }
  else if role &&& LfgRole.healer.bit ≠ 0 then { data with healers := data.healers - 1 }
  else { data with dps := data.dps - 1 }

/-- `storedSize` of `UpdateBestCompatibleInQueue`. -/
def storedSize : UInt8 :=
  if data.bestCompatible = "" then 0 else keySize data.bestCompatible

/-- `UpdateBestCompatibleInQueue` -/
def updateBestCompatible (key : String) (roles : LfgRolesMap) : LfgQueueData :=
  if keySize key ≤ data.storedSize then data
  else
    let data := ({ data with bestCompatible := key }).initializeGroupSetup store
    roles.toList.foldl (fun data x => data.takeRole x.2) data

end LfgQueueData

/-! ### Rejections and candidates -/

/-- Why `CheckCompatibility` returns before a combination is found to be possible. -/
inductive Rejection
  /-- A guid is not queued but listed as queued. -/
  | notQueued (guid : ObjectGuid)
  /-- Not stored in the cache. -/
  | uncached (compatibles : LfgCompatibility)
  | cached (compatibles : LfgCompatibility)
  deriving DecidableEq, Repr

/-- What the loop over the players has counted. -/
structure Tally where
  numPlayers : UInt8 := 0
  numLfgGroups : UInt8 := 0
  /-- `proposal.group` -/
  group : ObjectGuid := 0
  proposalGroups : ExtTreeMap ObjectGuid ObjectGuid := ∅

/-- A possible combination: `proposal.dungeonId`, its dungeon, and the roles of the players. -/
structure Candidate where
  dungeonId : UInt32
  dungeon : LFGDungeonData
  tally : Tally
  proposalRoles : LfgRolesMap

namespace LFGQueue

section

variable (q : LFGQueue)

/-- `SetCompatibles` -/
def setCompatibles (key : String) (compatibles : LfgCompatibility) : LFGQueue :=
  let data := { q.compatibleMapStore.getD key {} with compatibility := compatibles }
  { q with compatibleMapStore := q.compatibleMapStore.insert key data }

/-- `SetCompatibilityData` -/
def setCompatibilityData (key : String) (data : LfgCompatibilityData) : LFGQueue :=
  { q with compatibleMapStore := q.compatibleMapStore.insert key data }

variable (guid : ObjectGuid)

/-- `RemoveFromNewQueue` -/
def removeFromNewQueue : LFGQueue :=
  { q with newToQueueStore := q.newToQueueStore.filter (· ≠ guid) }

/-- `RemoveFromCurrentQueue` -/
def removeFromCurrentQueue : LFGQueue :=
  { q with currentQueueStore := q.currentQueueStore.filter (· ≠ guid) }

/-- `RemoveFromCompatibles` -/
def removeFromCompatibles : LFGQueue :=
  { q with
    compatibleMapStore := q.compatibleMapStore.filter fun key _ => !findsText key (guidText guid) }

/-- `AddToQueue` -/
def addToQueue (reAdd : Bool) : LFGQueue :=
  match q.queueDataStore[guid]? with
  | none => q
  | some _ =>
    if reAdd then { q with currentQueueStore := guid :: q.currentQueueStore }
    else { q with newToQueueStore := q.newToQueueStore ++ [guid] }

/-- `QueueDataStore[guid]`: an entry made by the way has no dungeons and no roles. -/
def touch (gameTime : Int) (guid : ObjectGuid) : LFGQueue :=
  match q.queueDataStore[guid]? with
  | some _ => q
  | none => { q with queueDataStore := q.queueDataStore.insert guid { joinTime := gameTime } }

/-- The dungeons of an entry. -/
def dungeonsOf : LfgDungeonSet :=
  (q.queueDataStore[guid]?.map LfgQueueData.dungeons).getD ∅

/-- The roles of an entry. -/
def rolesOf : LfgRolesMap :=
  (q.queueDataStore[guid]?.map LfgQueueData.roles).getD ∅

/-- The dungeons that all entries have. -/
def commonDungeons : List ObjectGuid → LfgDungeonSet
  | [] => ∅
  | guid :: rest => rest.foldl
      (fun proposalDungeons guid => proposalDungeons.filter (· ∈ q.dungeonsOf guid))
      (q.dungeonsOf guid)

end

variable (store : LfgDungeonStore) (mgr : LFGMgr)

/-- `FindBestCompatibleInQueue` -/
def findBestCompatible (q : LFGQueue) (guid : ObjectGuid) (data : LfgQueueData) : LfgQueueData :=
  q.compatibleMapStore.toList.foldl (fun data x =>
    if x.2.compatibility = .compatiblesWithLessPlayers ∧ findsText x.1 (guidText guid) = true then
      data.updateBestCompatible store x.1 x.2.roles
    else data) data

/-- `FindBestCompatibleInQueue` of a queued entry. -/
def findBestCompatibleInQueue (q : LFGQueue) (guid : ObjectGuid) : LFGQueue :=
  { q with queueDataStore := q.queueDataStore.modify guid (q.findBestCompatible store guid) }

/-- `RemoveFromQueue` -/
def removeFromQueue (q : LFGQueue) (guid : ObjectGuid) : LFGQueue :=
  let q := ((q.removeFromNewQueue guid).removeFromCurrentQueue guid).removeFromCompatibles guid
  let entries := q.queueDataStore.map fun other data =>
    if other ≠ guid ∧ findsText data.bestCompatible (guidText guid) = true then
      q.findBestCompatible store other { data with bestCompatible := "" }
    else data
  { q with queueDataStore := entries.erase guid }

/-- `AddQueueData` -/
def addQueueData (q : LFGQueue) (guid : ObjectGuid) (joinTime : Int) (dungeons : LfgDungeonSet)
    (roles : LfgRolesMap) : LFGQueue :=
  let data : LfgQueueData := { joinTime, dungeons, roles }
  let q := { q with
    queueDataStore := q.queueDataStore.insert guid (data.initializeGroupSetup store) }
  q.addToQueue guid false

/-- The loop that draws a dungeon that exists. -/
def drawDungeon (draw : Nat → Nat) : Nat → LfgDungeonSet → Option (UInt32 × LFGDungeonData)
  | 0, _ => none
  | left + 1, proposalDungeons =>
    match proposalDungeons.toList[draw left % proposalDungeons.size]? with
    | none => none
    | some dungeonId =>
      match store dungeonId with
      | some dungeon => some (dungeonId, dungeon)
      | none => drawDungeon draw left (proposalDungeons.erase dungeonId)

/-- The loop that counts players and groups. -/
def countPlayers (q : LFGQueue) (maxGroupSize : UInt32) :
    List ObjectGuid → Tally → Except Rejection Tally
  | [], tally => .ok tally
  | guid :: rest, tally =>
    if tally.numLfgGroups < 1 ∧ tally.numPlayers.toUInt32 ≤ maxGroupSize then
      match q.queueDataStore[guid]? with
      | none => .error (.notQueued guid)
      | some data =>
        let group := if ObjectGuid.getHigh guid = 0x1F5 then guid else 0
        let counted := { tally with
          proposalGroups := data.roles.keys.foldl (fun groups player => groups.insert player group)
            tally.proposalGroups
          numPlayers := UInt8.ofNat (tally.numPlayers.toNat + data.roles.size) }
        if mgr.isLfgGroup guid then
          countPlayers q maxGroupSize rest { counted with
            group := if tally.numLfgGroups = 0 then guid else tally.group
            numLfgGroups := tally.numLfgGroups + 1 }
        else countPlayers q maxGroupSize rest counted
    else .ok tally

/-- A player joins the proposal unless one of its players ignores or is ignored. -/
def mergePlayer (proposalRoles : LfgRolesMap) (x : ObjectGuid × UInt8) : LfgRolesMap :=
  if proposalRoles.toList.any fun y => x.1 ≠ y.1 && mgr.hasIgnore x.1 y.1 then proposalRoles
  else proposalRoles.insert x.1 x.2

/-- The loop that collects the roles of all players. -/
def mergeRoles (q : LFGQueue) (check : List ObjectGuid) : LfgRolesMap :=
  check.foldl (fun roles guid => (q.rolesOf guid).toList.foldl (mergePlayer mgr) roles) ∅

/-- `CheckCompatibility` up to the question whether there are enough players. -/
def assess (draw : Nat → Nat) (q : LFGQueue) (check : List ObjectGuid) :
    Except Rejection Candidate :=
  let proposalDungeons := q.commonDungeons check
  match drawDungeon store draw proposalDungeons.size proposalDungeons with
  | none => .error (.cached .incompatiblesNoDungeons)
  | some (dungeonId, dungeon) =>
    -- Check for correct size
    if dungeon.getMaxGroupSize.toNat < check.length then
      .error (.uncached .incompatiblesWrongGroupSize)
    else
      -- Check if more than one LFG group and number of players joining
      match q.countPlayers mgr dungeon.getMaxGroupSize check {} with
      | .error rejection => .error rejection
      | .ok tally =>
        if 1 < tally.numLfgGroups then .error (.cached .incompatiblesMultipleLfgGroups)
        else if dungeon.getMaxGroupSize < tally.numPlayers.toUInt32 then
          .error (.cached .incompatiblesTooMuchPlayers)
        -- If it's single group no need to check for duplicate players, ignores, bad roles
        else if 1 < check.length then
          let proposalRoles := q.mergeRoles mgr check
          if tally.numPlayers - UInt8.ofNat proposalRoles.size ≠ 0 then
            .error (.cached .incompatiblesHasIgnores)
          else
            match checkGroupRoles dungeon proposalRoles with
            | none => .error (.cached .incompatiblesNoRoles)
            | some proposalRoles => .ok ⟨dungeonId, dungeon, tally, proposalRoles⟩
        else
          -- assign new roles
          let proposalRoles := (check.head?.map q.rolesOf).getD ∅
          .ok ⟨dungeonId, dungeon, tally,
            (checkGroupRoles dungeon proposalRoles).getD proposalRoles⟩

/-- The loop that chooses the leader: whether one of the players wants to lead, and who does. -/
def chooseLeader (lead : Nat → Bool) : Nat → List (ObjectGuid × UInt8) → Bool × ObjectGuid →
    Bool × ObjectGuid
  | _, [], chosen => chosen
  | i, (guid, role) :: rest, (leader, chosen) =>
    if role &&& playerRoleLeader ≠ 0 then
      chooseLeader lead (i + 1) rest
        (true, if !leader || chosen = 0 || lead i then guid else chosen)
    else
      chooseLeader lead (i + 1) rest
        (leader, if !leader && (chosen = 0 || lead i) then guid else chosen)

/-- The new proposal. A player whom the tally has not reached is in no group here; the source
looks such a player up past the end of `proposalGroups`. -/
def propose (lead : Nat → Bool) (check : List ObjectGuid) (c : Candidate) : LfgProposal :=
  let isNew := c.tally.numLfgGroups ≠ 1 || mgr.getOldState (check.headD 0) ≠ .dungeon
  { dungeonId := c.dungeonId
    group := c.tally.group
    leader := (chooseLeader lead 0 c.proposalRoles.toList (false, 0)).2
    cancelTime := mgr.gameTime + 45
    isNew
    queues := check
    players := c.proposalRoles.map fun guid role =>
      let group := c.tally.proposalGroups.getD guid 0
      { role
        group
        accept := if !isNew && group ≠ 0 && group = c.tally.group then .agree else .pending } }

/-- `UpdateBestCompatibleInQueue` for all entries of a combination. -/
def updateBestCompatibles (q : LFGQueue) (key : String) (roles : LfgRolesMap)
    (check : List ObjectGuid) : LFGQueue :=
  check.foldl (fun q guid => { q with
    queueDataStore := q.queueDataStore.modify guid fun data =>
      data.updateBestCompatible store key roles }) q

/-- The rest of `CheckCompatibility`, for a possible combination. -/
def conclude (lead : Nat → Bool) (q : LFGQueue) (check : List ObjectGuid) (c : Candidate) :
    LfgCompatibility × LFGQueue :=
  let strGuids := concatenateGuids check
  -- Enough players?
  if c.tally.numPlayers.toUInt32 ≠ c.dungeon.getMaxGroupSize then
    let q := q.updateBestCompatibles store strGuids c.proposalRoles check
    (.compatiblesWithLessPlayers,
      q.setCompatibilityData strGuids ⟨.compatiblesWithLessPlayers, c.proposalRoles⟩)
  else if !mgr.allQueued check then
    (.compatiblesBadStates, q.setCompatibles strGuids .compatiblesBadStates)
  else
    -- Mark proposal members as not queued (but not remove queue data)
    let q := check.foldl (fun q guid => (q.removeFromNewQueue guid).removeFromCurrentQueue guid) q
    let q := { q with proposals := q.proposals ++ [propose mgr lead check c] }
    (.compatiblesMatch, q.setCompatibles strGuids .compatiblesMatch)

/-- `CheckCompatibility` after its call for the shorter list. -/
def judge (draws : Draws) (q : LFGQueue) (check : List ObjectGuid) :
    LfgCompatibility × LFGQueue :=
  let q := check.foldl (fun q guid => q.touch mgr.gameTime guid) q
  match q.assess store mgr (draws.dungeon check.length) check with
  | .error (.notQueued guid) => (.pending, q.removeFromQueue store guid)
  | .error (.uncached compatibles) => (compatibles, q)
  | .error (.cached compatibles) =>
    (compatibles, q.setCompatibles (concatenateGuids check) compatibles)
  | .ok c => q.conclude store mgr (draws.lead check.length) check c

/-- The verdicts before `LFG_COMPATIBLES_WITH_LESS_PLAYERS`. -/
def isIncompatible : LfgCompatibility → Bool
  | .compatiblesWithLessPlayers | .compatiblesBadStates | .compatiblesMatch => false
  | _ => true

/-- `CheckCompatibility` -/
def checkCompatibility (draws : Draws) : List ObjectGuid → LFGQueue → LfgCompatibility × LFGQueue
  | [], q => (.incompatiblesWrongGroupSize, q)
  | front :: rest, q =>
    -- Check all-but-new compatiblitity
    if 2 < rest.length + 1 then
      let child := checkCompatibility draws rest q
      if isIncompatible child.1 then
        (child.1, child.2.setCompatibles (concatenateGuids (front :: rest)) child.1)
      else judge store mgr draws child.2 (front :: rest)
    else judge store mgr draws q (front :: rest)

end LFGQueue

end TrinityCore.DungeonFinding
