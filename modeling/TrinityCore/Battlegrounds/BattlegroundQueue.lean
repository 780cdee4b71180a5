import Mathlib.Algebra.Ring.Nat
import Mathlib.Data.List.Sort
import TrinityCore.Entities.ObjectGuid
import TrinityCore.Lib.Placement

/-!
# The battleground queue

`BattlegroundQueue.cpp`: groups and players that wait for one kind of battleground, the selection
pools, and the matches that are made of them. What battlegrounds, arena teams and clients are told,
and average wait times are left out. Sizes of groups and pools are far from overflow.

`BattlegroundQueueUpdate` is here from its creation of new battlegrounds on. An iterator is the
group that it is at: no list has a group twice. Where the source moves an iterator behind the end
of its list, or takes the last element of an empty one, the result is absent.
-/

namespace TrinityCore.Battlegrounds

open Function

/-- `ALLIANCE` and `HORDE`. -/
inductive Team where
  | alliance
  | horde
  deriving DecidableEq, Repr

/-- `TEAM_ALLIANCE` and `TEAM_HORDE`. -/
abbrev TeamId := Fin 2

def Team.id : Team → TeamId
  | alliance => 0
  | horde => 1

def teamOf : TeamId → Team
  | 0 => .alliance
  | 1 => .horde

def otherTeam (team : TeamId) : TeamId := team + 1

/-- `BattlegroundBracketId`, below `MAX_BATTLEGROUND_BRACKETS`. -/
abbrev BracketId := Fin 16

/-- `BattlegroundQueueGroupTypes`. -/
abbrev GroupType := Fin 4

/-- `BG_QUEUE_PREMADE_ALLIANCE + team`. -/
def bgQueuePremade (team : TeamId) : GroupType := ⟨team, by omega⟩

/-- `BG_QUEUE_NORMAL_ALLIANCE + team`. -/
def bgQueueNormal (team : TeamId) : GroupType := ⟨2 + team, by omega⟩

/-- The faction of a list. -/
def GroupType.team (index : GroupType) : TeamId := ⟨index % 2, by omega⟩

/-- `GroupQueueInfo`, `Players` by its keys in their order. -/
structure GroupQueueInfo where
  players : List ObjectGuid
  team : Team
  isRated : Bool := false
  arenaType : UInt8 := 0
  arenaTeamId : UInt32 := 0
  joinTime : UInt32 := 0
  removeInviteTime : UInt32 := 0
  isInvitedToBGInstanceGUID : UInt32 := 0
  arenaTeamRating : UInt32 := 0
  arenaMatchmakerRating : UInt32 := 0
  opponentsTeamRating : UInt32 := 0
  opponentsMatchmakerRating : UInt32 := 0
  deriving DecidableEq, Repr

/-- A pointer to a `GroupQueueInfo`. -/
abbrev GroupId := Nat

structure SelectionPool where
  selectedGroups : List GroupId := []
  playerCount : Nat := 0
  deriving DecidableEq, Repr

structure BattlegroundQueue where
  /-- `m_QueuedPlayers`, with the `GroupInfo` of each. -/
  queuedPlayers : ObjectGuid → Option GroupId := fun _ => none
  queuedGroups : BracketId × GroupType → List GroupId := fun _ => []
  /-- The groups that are not deleted. -/
  groups : GroupId → Option GroupQueueInfo := fun _ => none
  /-- A pointer that no group had yet. -/
  nextGroup : GroupId := 0
  selectionPools : TeamId → SelectionPool := fun _ => {}

namespace BattlegroundQueue

variable (q : BattlegroundQueue)

variable (group : GroupId)

/-- What is behind a pointer; nothing is said of a deleted group. -/
def ginfo : GroupQueueInfo :=
  (q.groups group).getD { players := [], team := .alliance }

def modifyGroup (f : GroupQueueInfo → GroupQueueInfo) : BattlegroundQueue :=
  { q with groups := update q.groups group ((q.groups group).map f) }

def isInvited : Bool := (q.ginfo group).isInvitedToBGInstanceGUID != 0

/-! ### Joining and leaving -/

/-- The arguments of `AddGroup`: `grp` has the members that are found. -/
structure Join where
  leader : ObjectGuid
  /-- `leader->GetTeam()`. -/
  team : Team
  grp : Option (List ObjectGuid) := none
  bracketId : BracketId
  arenaType : UInt8 := 0
  isRated : Bool := false
  isPremade : Bool := false
  arenaRating : UInt32 := 0
  matchmakerRating : UInt32 := 0
  arenaTeamId : UInt32 := 0
  gameTime : UInt32 := 0

def Join.players (join : Join) : List ObjectGuid :=
  match join.grp with
  | some members => members
  | none => [join.leader]

/-- The list that a new group is put in. -/
def Join.index (join : Join) : GroupType :=
  if !join.isRated && !join.isPremade then bgQueueNormal join.team.id
  else bgQueuePremade join.team.id

/-- `Players[guid] = ...`. -/
def insertPlayer (players : List ObjectGuid) (guid : ObjectGuid) : List ObjectGuid :=
  if guid ∈ players then players else players.orderedInsert (· ≤ ·) guid

/-- `AddGroup`. -/
def addGroup (join : Join) : BattlegroundQueue :=
  let info : GroupQueueInfo :=
    { players := join.players.foldl insertPlayer []
      team := join.team
      isRated := join.isRated
      arenaType := join.arenaType
      arenaTeamId := join.arenaTeamId
      joinTime := join.gameTime
      arenaTeamRating := join.arenaRating
      arenaMatchmakerRating := join.matchmakerRating }
  { q with
    queuedPlayers := fun guid =>
      if guid ∈ join.players then some q.nextGroup else q.queuedPlayers guid
    queuedGroups := Placement.pushBack q.queuedGroups (join.bracketId, join.index) q.nextGroup
    groups := update q.groups q.nextGroup (some info)
    nextGroup := q.nextGroup + 1 }

/-- The search of `RemovePlayer` in the lists of one bracket, the last list that has the group. -/
def findInBracket (team : TeamId) (bracketId : BracketId) : Option (BracketId × GroupType) :=
  if group ∈ q.queuedGroups (bracketId, bgQueueNormal team) then
    some (bracketId, bgQueueNormal team)
  else if group ∈ q.queuedGroups (bracketId, bgQueuePremade team) then
    some (bracketId, bgQueuePremade team)
  else none

/-- The search of `RemovePlayer`, from the highest bracket down. -/
def findGroupInfo : Option (BracketId × GroupType) :=
  (List.finRange 16).reverse.findSome? (q.findInBracket group (q.ginfo group).team.id)

/-- The player leaves `m_QueuedPlayers` and the group. -/
def leaveGroup (guid : ObjectGuid) (group : GroupId) : BattlegroundQueue :=
  { q.modifyGroup group fun info => { info with players := info.players.filter (· ≠ guid) } with
    queuedPlayers := update q.queuedPlayers guid none }

/-- An empty group is erased and deleted. -/
def deleteGroup (k : BracketId × GroupType) (group : GroupId) : BattlegroundQueue :=
  { q with
    queuedGroups := Placement.erase q.queuedGroups k group
    groups := update q.groups group none }

/-- `RemovePlayer`, with so many levels of its recursion: a rated group that is not invited leaves
as a whole. -/
def removePlayers : Nat → BattlegroundQueue → ObjectGuid → BattlegroundQueue
  | 0, q, _ => q
  | depth + 1, q, guid =>
    match q.queuedPlayers guid with
    | none => q
    | some group =>
      match q.findGroupInfo group with
      | none => q
      | some k =>
        let q := q.leaveGroup guid group
        match (q.ginfo group).players with
        | [] => q.deleteGroup k group
        | next :: _ =>
          if !q.isInvited group && (q.ginfo group).isRated then removePlayers depth q next else q

/-- `RemovePlayer`; each level of its recursion removes one player of the group. -/
def removePlayer (guid : ObjectGuid) : BattlegroundQueue :=
  match q.queuedPlayers guid with
  | none => q
  | some group => removePlayers (q.ginfo group).players.length q guid

/-! ### Invitations and pools -/

/-- `INVITE_ACCEPT_WAIT_TIME`. -/
def inviteAcceptWaitTime : UInt32 := 90000

/-- The team of an invited group, and its invitation where it has none. -/
def invite (info : GroupQueueInfo) (instanceId : UInt32) (side : Option Team)
    (gameTime : UInt32) : GroupQueueInfo :=
  let info := { info with team := side.getD info.team }
  if info.isInvitedToBGInstanceGUID = 0 then
    { info with
      isInvitedToBGInstanceGUID := instanceId
      removeInviteTime := gameTime + inviteAcceptWaitTime }
  else info

/-- `InviteGroupToBG`, for a battleground of this instance. -/
def inviteGroupToBG (instanceId : UInt32) (side : Option Team)
    (gameTime : UInt32) : BattlegroundQueue :=
  q.modifyGroup group fun info => invite info instanceId side gameTime

/-- `SelectionPool::Init` of one pool. -/
def initPool (team : TeamId) : BattlegroundQueue :=
  { q with selectionPools := update q.selectionPools team {} }

/-- `SelectionPool::Init` of both pools. -/
def initPools : BattlegroundQueue := (q.initPool 0).initPool 1

/-- `SelectionPool::AddGroup`. -/
def addToPool (pool : SelectionPool) (group : GroupId) (desiredCount : Nat) :
    Bool × SelectionPool :=
  let size := (q.ginfo group).players.length
  if !q.isInvited group && pool.playerCount + size ≤ desiredCount then
    (true, { selectedGroups := pool.selectedGroups ++ [group], playerCount := pool.playerCount + size })
  else (pool.playerCount < desiredCount, pool)

/-- Groups that are not invited are added until the pool is full. -/
def fillPool (desiredCount : Nat) : List GroupId → SelectionPool → SelectionPool
  | [], pool => pool
  | group :: rest, pool =>
    if q.isInvited group then fillPool desiredCount rest pool
    else
      match q.addToPool pool group desiredCount with
      | (true, pool) => fillPool desiredCount rest pool
      | (false, pool) => pool

def setPool (team : TeamId) (pool : SelectionPool) : BattlegroundQueue :=
  { q with selectionPools := update q.selectionPools team pool }

/-- The selected groups of both pools are invited, to the side that they are on. -/
def inviteSelected (instanceId gameTime : UInt32) : BattlegroundQueue :=
  let invite := fun (q : BattlegroundQueue) group =>
    q.inviteGroupToBG group instanceId (some (q.ginfo group).team) gameTime
  let q₁ := (q.selectionPools 0).selectedGroups.foldl invite q
  (q.selectionPools 1).selectedGroups.foldl invite q₁

/-! ### Premade groups -/

variable (bracketId : BracketId)

/-- A premade group whose time is over, or that is too small, moves to the normal queue. -/
def movePremade (minPlayersPerTeam : Nat) (timeBefore : UInt32)
    (team : TeamId) : BattlegroundQueue :=
  match q.queuedGroups (bracketId, bgQueuePremade team) with
  | [] => q
  | group :: _ =>
    let info := q.ginfo group
    if !q.isInvited group &&
        (info.joinTime < timeBefore || info.players.length < minPlayersPerTeam) then
      { q with
        queuedGroups := Placement.move q.queuedGroups (bracketId, bgQueuePremade team)
          (bracketId, bgQueueNormal team) group }
    else q

/-- `CheckPremadeMatch`, where `timeBefore` is the time that groups wait for a match ago. -/
def checkPremadeMatch (minPlayersPerTeam maxPlayersPerTeam : Nat)
    (timeBefore : UInt32) : Bool × BattlegroundQueue :=
  let waiting := fun team =>
    (q.queuedGroups (bracketId, bgQueuePremade team)).find? fun group => !q.isInvited group
  match waiting 0, waiting 1 with
  | some aliGroup, some hordeGroup =>
    let ali := (q.addToPool (q.selectionPools 0) aliGroup maxPlayersPerTeam).2
    let horde := (q.addToPool (q.selectionPools 1) hordeGroup maxPlayersPerTeam).2
    let maxPlayers := min ali.playerCount horde.playerCount
    let normal := fun team => q.queuedGroups (bracketId, bgQueueNormal team)
    (true, (q.setPool 0 (q.fillPool maxPlayers (normal 0) ali)).setPool 1
      (q.fillPool maxPlayers (normal 1) horde))
  | _, _ =>
    let q := q.movePremade bracketId minPlayersPerTeam timeBefore 0
    (false, q.movePremade bracketId minPlayersPerTeam timeBefore 1)

/-! ### Normal matches -/

/-- Groups that are not invited are added until there are enough players, and the groups from the
iterator on. -/
def selectEnough (minPlayers maxPlayers : Nat) :
    List GroupId → SelectionPool → SelectionPool × List GroupId
  | [], pool => (pool, [])
  | group :: rest, pool =>
    if q.isInvited group then selectEnough minPlayers maxPlayers rest pool
    else
      let pool := (q.addToPool pool group maxPlayers).2
      if minPlayers ≤ pool.playerCount then (pool, group :: rest)
      else selectEnough minPlayers maxPlayers rest pool

/-- What `CheckNormalMatch` reads besides the queue. -/
structure MatchConfig where
  /-- `CONFIG_BATTLEGROUND_INVITATION_TYPE` is `BG_QUEUE_INVITATION_TYPE_NO_BALANCE`. -/
  noBalance : Bool := false
  isTesting : Bool := false

/-- Whether there are enough players in the pools to start. -/
def enoughPlayers (config : MatchConfig) (minPlayers : Nat) : Bool :=
  let ali := (q.selectionPools 0).playerCount
  let horde := (q.selectionPools 1).playerCount
  if config.isTesting && (ali != 0 || horde != 0) then true
  else decide (minPlayers ≤ ali ∧ minPlayers ≤ horde)

/-- More groups for the team with less players, behind its iterator. -/
def inviteMore (config : MatchConfig) (minPlayers : Nat) (j : TeamId) (iterator : List GroupId) :
    Option (Bool × BattlegroundQueue) :=
  match iterator with
  | [] => none
  | _ :: rest =>
    let q := q.setPool j
      (q.fillPool (q.selectionPools (otherTeam j)).playerCount rest (q.selectionPools j))
    let difference : Int :=
      (q.selectionPools 1).playerCount - ((q.selectionPools 0).playerCount : Int)
    if 2 < difference.natAbs then some (false, q) else some (q.enoughPlayers config minPlayers, q)

/-- `CheckNormalMatch`. -/
def checkNormalMatch (config : MatchConfig) (bracketId : BracketId) (minPlayers maxPlayers : Nat) :
    Option (Bool × BattlegroundQueue) :=
  let select := fun team => q.selectEnough minPlayers maxPlayers
    (q.queuedGroups (bracketId, bgQueueNormal team)) (q.selectionPools team)
  let (ali, aliIterator) := select 0
  let (horde, hordeIterator) := select 1
  let q := (q.setPool 0 ali).setPool 1 horde
  if !config.noBalance && minPlayers ≤ horde.playerCount && minPlayers ≤ ali.playerCount then
    if horde.playerCount < ali.playerCount then q.inviteMore config minPlayers 1 hordeIterator
    else q.inviteMore config minPlayers 0 aliIterator
  else some (q.enoughPlayers config minPlayers, q)

/-- The team of a group of the other pool is changed, and the group is moved. -/
def changeTeam (teamIndex : TeamId) (group : GroupId) : BattlegroundQueue :=
  { q.modifyGroup group fun info => { info with team := teamOf (otherTeam teamIndex) } with
    queuedGroups := Placement.move q.queuedGroups (bracketId, bgQueueNormal teamIndex)
      (bracketId, bgQueueNormal (otherTeam teamIndex)) group }

/-- `CheckSkirmishForSameFaction`. -/
def checkSkirmishForSameFaction (minPlayersPerTeam : Nat) : Option (Bool × BattlegroundQueue) :=
  if (q.selectionPools 0).playerCount < minPlayersPerTeam ∧
      (q.selectionPools 1).playerCount < minPlayersPerTeam then some (false, q)
  else
    let teamIndex : TeamId :=
      if (q.selectionPools 1).playerCount = minPlayersPerTeam then 1 else 0
    let q := q.initPool (otherTeam teamIndex)
    match (q.selectionPools teamIndex).selectedGroups.getLast? with
    | none => none
    | some last =>
      match (q.queuedGroups (bracketId, bgQueueNormal teamIndex)).dropWhile (· != last) with
      | [] => some (false, q)
      | _ :: behind =>
        let pool := q.fillPool minPlayersPerTeam behind {}
        let q := q.setPool (otherTeam teamIndex) pool
        if pool.playerCount ≠ minPlayersPerTeam then some (false, q)
        -- Each group of the pool is behind the last one, in the list that it is erased from.
        else some (true, pool.selectedGroups.foldl (fun q => q.changeTeam bracketId teamIndex) q)

/-! ### Rated arenas -/

/-- What the rated part of an update reads besides the queue. -/
structure RatedConfig where
  maxRatingDifference : UInt32
  ratingDiscardTimer : UInt32
  gameTime : UInt32

/-- The rating of the team that waits longest, in an automatic update. -/
def frontRating : UInt32 :=
  let front := fun team =>
    ((q.queuedGroups (bracketId, bgQueuePremade team)).head?).map q.ginfo
  match front 0, front 1 with
  | some front1, some front2 =>
    if front1.joinTime < front2.joinTime then front1.arenaMatchmakerRating
    else front2.arenaMatchmakerRating
  | some front1, none => front1.arenaMatchmakerRating
  | none, some front2 => front2.arenaMatchmakerRating
  | none, none => 0

/-- Whether a group may play next, for a rating. -/
def matchesRating (config : RatedConfig) (arenaRating : UInt32) (group : GroupId) : Bool :=
  let arenaMinRating :=
    if arenaRating ≤ config.maxRatingDifference then 0
    else arenaRating - config.maxRatingDifference
  let arenaMaxRating := arenaRating + config.maxRatingDifference
  let discardTime := (config.gameTime - config.ratingDiscardTimer).toInt32
  let info := q.ginfo group
  !q.isInvited group &&
    ((arenaMinRating ≤ info.arenaMatchmakerRating &&
        info.arenaMatchmakerRating ≤ arenaMaxRating) ||
      info.joinTime.toInt32 < discardTime)

/-- A group that changes its faction for a rated match is moved, before its invitation. -/
def moveRated (side : TeamId) (group : GroupId) : BattlegroundQueue :=
  if (q.ginfo group).team ≠ teamOf side then
    { q with
      queuedGroups := Placement.move q.queuedGroups (bracketId, bgQueuePremade (otherTeam side))
        (bracketId, bgQueuePremade side) group }
  else q

def setOpponent (opponent : GroupQueueInfo) : BattlegroundQueue :=
  q.modifyGroup group fun info =>
    { info with
      opponentsTeamRating := opponent.arenaTeamRating
      opponentsMatchmakerRating := opponent.arenaMatchmakerRating }

/-- Two teams play, where their arena is created. -/
def startRatedMatch (arena : Option UInt32) (gameTime : UInt32)
    (aTeam hTeam : GroupId) : BattlegroundQueue :=
  match arena with
  | none => q
  | some instanceId =>
    let a := q.ginfo aTeam
    let h := q.ginfo hTeam
    let q := (q.setOpponent aTeam h).setOpponent hTeam a
    let q := q.moveRated bracketId 0 aTeam
    let q := q.moveRated bracketId 1 hTeam
    let q := q.inviteGroupToBG aTeam instanceId (some .alliance) gameTime
    q.inviteGroupToBG hTeam instanceId (some .horde) gameTime

/-- The rated part of `BattlegroundQueueUpdate`, with the instance that is created for it. -/
def updateRatedArena (config : RatedConfig) (bracketId : BracketId) (arenaRating : UInt32)
    (arena : Option UInt32) : BattlegroundQueue :=
  let arenaRating := if arenaRating = 0 then q.frontRating bracketId else arenaRating
  let queue := fun team => q.queuedGroups (bracketId, bgQueuePremade team)
  let fits := q.matchesRating config arenaRating
  -- The second team is looked for behind the first one, in the same list.
  let second := fun team first => ((queue team).dropWhile (· != first)).find? fun group =>
    fits group && (q.ginfo first).arenaTeamId != (q.ginfo group).arenaTeamId
  let start := q.startRatedMatch bracketId arena config.gameTime
  match (queue 0).find? fits, (queue 1).find? fits with
  | some aTeam, some hTeam => start aTeam hTeam
  | some first, none =>
    match second 0 first with
    | some hTeam => start first hTeam
    | none => q
  | none, some first =>
    match second 1 first with
    | some hTeam => start first hTeam
    | none => q
  | none, none => q

/-! ### Updates -/

/-- What `BattlegroundQueueUpdate` is called with and reads: its arguments, the template, and the
instances that `CreateNewBattleground` makes. -/
structure Update where
  bracketId : BracketId
  isArena : Bool
  minPlayersPerTeam : Nat
  maxPlayersPerTeam : Nat
  isRated : Bool := false
  arenaRating : UInt32 := 0
  timeBefore : UInt32
  config : MatchConfig
  rated : RatedConfig
  premadeBattleground : Option UInt32
  newBattleground : Option UInt32

/-- The premade match of an update; absent where its battleground cannot be created. -/
def updatePremade (u : Update) : Option BattlegroundQueue :=
  if u.isArena then some q
  else
    match q.checkPremadeMatch u.bracketId u.minPlayersPerTeam u.maxPlayersPerTeam u.timeBefore with
    | (false, q) => some q
    | (true, q) => u.premadeBattleground.map fun bg2 =>
      (q.inviteSelected bg2 u.rated.gameTime).initPools

/-- The condition of a new match that is not rated. -/
def checkMatch (u : Update) : Option (Bool × BattlegroundQueue) := do
  let (found, q) ← q.checkNormalMatch u.config u.bracketId u.minPlayersPerTeam u.maxPlayersPerTeam
  if !found && u.isArena then q.checkSkirmishForSameFaction u.bracketId u.minPlayersPerTeam
  else some (found, q)

/-- `BattlegroundQueueUpdate` behind its loop over battlegrounds with free slots. -/
def battlegroundQueueUpdate (u : Update) : Option BattlegroundQueue :=
  if ∀ index, q.queuedGroups (u.bracketId, index) = [] then some q
  else
    let started := q.initPools
    match started.updatePremade u with
    | none => some (started.checkPremadeMatch u.bracketId u.minPlayersPerTeam u.maxPlayersPerTeam
        u.timeBefore).2
    | some q =>
      if u.isRated then
        if u.isArena then
          some (q.updateRatedArena u.rated u.bracketId u.arenaRating u.newBattleground)
        else some q
      else do
        let (found, q) ← q.checkMatch u
        match found, u.newBattleground with
        | true, some bg2 => some (q.inviteSelected bg2 u.rated.gameTime)
        | _, _ => some q

end BattlegroundQueue

end TrinityCore.Battlegrounds
