import TrinityCore.Guilds.Guild
import TrinityCore.Lib.StateMachine

/-!
# Guild ranks and leadership

Who joins and leaves a guild, changes ranks, adds and removes them, and leads the guild, as
`Guild.cpp` does it.
-/

namespace TrinityCore.Guilds

open StateMachine

namespace Guild

variable (g : Guild)

/-- `AddMember`; no name is a character that is not connected and has no valid row in the
database. -/
def addMember (guid rankId : Nat) (name : Option String) : Guild :=
  if g.guildIds guid ≠ 0 then g
  else
    match name with
    | none => g
    | some name =>
      let rankId := if rankId = GUILD_RANK_NONE then g.getLowestRankId else rankId
      { g with
        members := g.members.filter (·.guid ≠ guid) ++ [{ guid, name, rankId }]
        guildIds := Function.update g.guildIds guid g.id }

/-- One member in the search for a new leader when one leaves. -/
def betterLeader (guid : Nat) (newLeader : Option Member) (member : Member) : Option Member :=
  if member.guid = guid then newLeader
  else
    match newLeader with
    | none => some member
    | some best => if member.rankId < best.rankId then some member else some best

/-- The new leader: the first of the others with the highest rank. -/
def newLeader (members : List Member) (guid : Nat) : Option Member :=
  members.foldl (betterLeader guid) none

/-- What `DeleteMember` does after it has looked at the leader. -/
def eraseMember (guid : Nat) : Guild :=
  { g with
    members := g.members.filter (·.guid ≠ guid)
    guildIds := Function.update g.guildIds guid 0 }

/-- The members that `Disband` deletes. -/
def disband : Guild := g.members.foldl (fun g member => g.eraseMember member.guid) g

/-- `DeleteMember`, when the guild is not disbanding. -/
def deleteMember (guid : Nat) : Guild :=
  if g.leaderGuid = guid then
    match newLeader g.members guid with
    | none => g.disband
    | some leader => (g.setLeader leader.guid).eraseMember guid
  else g.eraseMember guid

/-- `HandleUpdateMemberRank`; none is a failed assertion. -/
def handleUpdateMemberRank (player guid : Nat) (demote : Bool) : Option Guild :=
  if !g.hasRankRight player (if demote then GR_RIGHT_DEMOTE else GR_RIGHT_PROMOTE) then some g
  else
    match g.getMember guid with
    | none => some g
    | some member =>
      if member.guid = player then some g
      else
        match g.getMember player with
        | none => none
        | some memberMe =>
          let refused :=
            if demote then
              member.rankId ≤ memberMe.rankId || g.getLowestRankId ≤ member.rankId
            else member.rankId ≤ (memberMe.rankId + 1) % 256
          if refused then some g
          else some (g.changeRank guid (if demote then member.rankId + 1 else member.rankId - 1))

/-- `HandleSetMemberRank` with the `SendGuildRanksUpdate` that it ends in; none is the access to a
member that does not exist. -/
def handleSetMemberRank (player targetGuid rank : Nat) : Option Guild :=
  match g.getMember targetGuid with
  | none => none
  | some member =>
    let rights := if member.rankId < rank then GR_RIGHT_DEMOTE else GR_RIGHT_PROMOTE
    if !g.hasRankRight player rights then some g
    else if member.guid = player then some g
    else some (g.changeRank targetGuid rank)

/-- The member that `HandleSetNewGuildMaster` accepts as the new leader. The days are those that
the leader has been away, none while he is online. -/
def newGuildMaster (g : Guild) (player : Nat) (name : String) (isSelfPromote : Bool)
    (inactiveDays : Nat) : Option Member :=
  if isSelfPromote then
    (g.getMember player).filter fun newGuildMaster =>
      newGuildMaster.rankId ≤ GR_MEMBER && GUILD_MASTER_DETHRONE_INACTIVE_DAYS ≤ inactiveDays
  else if g.isLeader player then g.getMemberByName name
  else none

/-- `HandleSetNewGuildMaster`; none is a failed assertion. -/
def handleSetNewGuildMaster (player : Nat) (name : String) (isSelfPromote : Bool)
    (inactiveDays : Nat) : Option Guild :=
  match g.getMember g.leaderGuid with
  | none => none
  | some oldGuildMaster =>
    match g.newGuildMaster player name isSelfPromote inactiveDays with
    | none => some g
    | some newGuildMaster =>
      some ((g.setLeader newGuildMaster.guid).changeRank oldGuildMaster.guid GR_INITIATE)

/-- `HandleAddNewRank`. -/
def handleAddNewRank (player : Nat) (name : String) : Guild :=
  if GUILD_RANKS_MAX_COUNT ≤ g.getRanksSize then g
  else if g.isLeader player then g.createRank name (GR_RIGHT_GCHATLISTEN ||| GR_RIGHT_GCHATSPEAK)
  else g

/-- `HandleRemoveRank`. -/
def handleRemoveRank (player rankId : Nat) : Guild :=
  if g.getRanksSize ≤ GUILD_RANKS_MIN_COUNT || g.getRanksSize ≤ rankId || !g.isLeader player then g
  else { g with ranks := g.ranks.eraseIdx rankId }

end Guild

/-- What is asked of a guild. -/
inductive GuildRequest where
  | addMember (guid rankId : Nat) (name : Option String)
  | deleteMember (guid : Nat)
  | updateMemberRank (player guid : Nat) (demote : Bool)
  | setMemberRank (player targetGuid rank : Nat)
  | setNewGuildMaster (player : Nat) (name : String) (isSelfPromote : Bool) (inactiveDays : Nat)
  | addNewRank (player : Nat) (name : String)
  | removeRank (player rankId : Nat)

/-- One request; none is a server that has crashed. -/
def Guild.handle (g : Guild) : GuildRequest → Option Guild
  | .addMember guid rankId name => some (g.addMember guid rankId name)
  | .deleteMember guid => some (g.deleteMember guid)
  | .updateMemberRank player guid demote => g.handleUpdateMemberRank player guid demote
  | .setMemberRank player targetGuid rank => g.handleSetMemberRank player targetGuid rank
  | .setNewGuildMaster player name isSelfPromote inactiveDays =>
    g.handleSetNewGuildMaster player name isSelfPromote inactiveDays
  | .addNewRank player name => some (g.handleAddNewRank player name)
  | .removeRank player rankId => some (g.handleRemoveRank player rankId)

def handleRequest (s : Option Guild) (request : GuildRequest) : Option Guild :=
  s.bind fun g => g.handle request

/-- A guild in order. -/
structure Guild.Valid (g : Guild) : Prop where
  id : g.id ≠ 0
  rankIds : g.ranks.map RankInfo.rankId = List.range g.ranks.length
  minCount : GUILD_RANKS_MIN_COUNT ≤ g.ranks.length
  maxCount : g.ranks.length ≤ GUILD_RANKS_MAX_COUNT
  keys : (g.members.map Member.guid).Nodup
  known : ∀ member ∈ g.members, g.guildIds member.guid ≠ 0
  memberRank : ∀ member ∈ g.members, member.rankId < g.ranks.length
  leader : ∃ member ∈ g.members, member.guid = g.leaderGuid
  leaderRank : ∀ member ∈ g.members, member.rankId = GR_GUILDMASTER ↔ member.guid = g.leaderGuid

/-- The server is running with a guild in order. -/
def ValidState (s : Option Guild) : Prop := ∃ g, s = some g ∧ g.Valid

/-- The last member is not deleted. -/
def GuildRequest.Leaves (s : Option Guild) : GuildRequest → Prop
  | .deleteMember guid => ∀ g, s = some g → ∃ member ∈ g.members, member.guid ≠ guid
  | _ => True

/-- The requests that keep a guild in order: who joins gets a rank that exists and is not the
leader's; a rank that is set is one that exists, and the leader's for the leader only; a new leader
is not the old one, who gets a rank that exists; and of the ranks only the last is removed, when no
member has it. -/
def GuildRequest.Fits (g : Guild) : GuildRequest → Prop
  | .addMember guid rankId name => g.guildIds guid = 0 → name ≠ none →
    rankId = GUILD_RANK_NONE ∨ rankId ≠ GR_GUILDMASTER ∧ rankId < g.getRanksSize
  | .setMemberRank player targetGuid rank => ∃ member, g.getMember targetGuid = some member ∧
    (g.hasRankRight player (if member.rankId < rank then GR_RIGHT_DEMOTE else GR_RIGHT_PROMOTE) →
      targetGuid ≠ player →
        rank % 256 < g.getRanksSize ∧ (rank % 256 = GR_GUILDMASTER ↔ targetGuid = g.leaderGuid))
  | .setNewGuildMaster player name isSelfPromote inactiveDays =>
    ∀ member, g.newGuildMaster player name isSelfPromote inactiveDays = some member →
      member.guid ≠ g.leaderGuid ∧ GR_INITIATE < g.getRanksSize
  | .removeRank player rankId => GUILD_RANKS_MIN_COUNT < g.getRanksSize → rankId < g.getRanksSize →
    g.isLeader player → rankId = g.getLowestRankId ∧ ∀ member ∈ g.members, member.rankId ≠ rankId
  | _ => True

end TrinityCore.Guilds
