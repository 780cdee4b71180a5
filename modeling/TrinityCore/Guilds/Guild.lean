import Mathlib.Data.List.Nodup

/-!
# Guilds

The ranks and members of `Guild.h` and the small functions of `Guild.cpp` that read and write them.
The ranks are a vector whose positions are the rank ids that members have. The members are a map by
guid, as the list that an iteration over it goes through.
-/

namespace TrinityCore.Guilds

open List

def GUILD_BANK_MAX_TABS : Nat := 8
def GUILD_MASTER_DETHRONE_INACTIVE_DAYS : Nat := 90
def GUILD_RANKS_MIN_COUNT : Nat := 2
def GUILD_RANKS_MAX_COUNT : Nat := 10
def GUILD_RANK_NONE : Nat := 0xFF
def TAB_UNDEFINED : UInt8 := 0xFF

def GR_GUILDMASTER : Nat := 0
def GR_OFFICER : Nat := 1
def GR_MEMBER : Nat := 3
def GR_INITIATE : Nat := 4

def GR_RIGHT_EMPTY : UInt32 := 0x00000040
def GR_RIGHT_GCHATLISTEN : UInt32 := GR_RIGHT_EMPTY ||| 0x00000001
def GR_RIGHT_GCHATSPEAK : UInt32 := GR_RIGHT_EMPTY ||| 0x00000002
def GR_RIGHT_REMOVE : UInt32 := GR_RIGHT_EMPTY ||| 0x00000020
def GR_RIGHT_PROMOTE : UInt32 := GR_RIGHT_EMPTY ||| 0x00000080
def GR_RIGHT_DEMOTE : UInt32 := GR_RIGHT_EMPTY ||| 0x00000100
def GR_RIGHT_WITHDRAW_REPAIR : UInt32 := 0x00040000
def GR_RIGHT_WITHDRAW_GOLD : UInt32 := 0x00080000
def GR_RIGHT_ALL : UInt32 := 0x00DDFFBF

/-- `GuildBankRightsAndSlots`: what a rank may do with a bank tab, and how often a day. -/
structure GuildBankRightsAndSlots where
  tabId : UInt8
  rights : UInt8
  slots : UInt32
  deriving DecidableEq, Repr

/-- `RankInfo`. -/
structure RankInfo where
  rankId : Nat
  name : String
  rights : UInt32
  bankMoneyPerDay : UInt32
  bankTabRightsAndSlots : List GuildBankRightsAndSlots :=
    List.replicate GUILD_BANK_MAX_TABS ⟨TAB_UNDEFINED, 0, 0⟩
  deriving DecidableEq, Repr

/-- `Member`, with what he has withdrawn from the bank since the last reset. -/
structure Member where
  guid : Nat
  name : String
  rankId : Nat
  bankWithdraw : List Nat := List.replicate GUILD_BANK_MAX_TABS 0
  bankWithdrawMoney : Nat := 0
  deriving DecidableEq, Repr

/-- `Guild`. The guild id of every character, which members' characters have from the guild, is
kept with it; `id` is its own. -/
structure Guild where
  id : Nat
  ranks : List RankInfo
  members : List Member
  leaderGuid : Nat
  guildIds : Nat → Nat

namespace Guild

variable (g : Guild)

/-- `_GetRanksSize`. -/
def getRanksSize : Nat := g.ranks.length % 256

/-- `_GetLowestRankId`. -/
def getLowestRankId : Nat := (g.ranks.length + 255) % 256

/-- `GetRankInfo`. -/
def getRankInfo (rankId : Nat) : Option RankInfo :=
  if rankId < g.getRanksSize then g.ranks[rankId]? else none

/-- `_GetRankRights`. -/
def getRankRights (rankId : Nat) : UInt32 := ((g.getRankInfo rankId).map (·.rights)).getD 0

/-- `GetMember`, by guid. -/
def getMember (guid : Nat) : Option Member := g.members.find? (·.guid = guid)

/-- `GetMember`, by name. -/
def getMemberByName (name : String) : Option Member := g.members.find? (·.name = name)

/-- `_HasRankRight`. -/
def hasRankRight (player : Nat) (right : UInt32) : Bool :=
  match g.getMember player with
  | some member => g.getRankRights member.rankId &&& right ≠ GR_RIGHT_EMPTY
  | none => false

/-- `_IsLeader`. -/
def isLeader (player : Nat) : Bool :=
  player = g.leaderGuid ||
    match g.getMember player with
    | some member => member.rankId = GR_GUILDMASTER
    | none => false

/-- One member of the map changed in place. -/
def modifyMember (guid : Nat) (change : Member → Member) : Guild :=
  { g with members := g.members.map fun member =>
      if member.guid = guid then change member else member }

/-- `Member::ChangeRank`. -/
def changeRank (guid newRank : Nat) : Guild :=
  g.modifyMember guid fun member => { member with rankId := newRank % 256 }

/-- `_SetLeader`. -/
def setLeader (leader : Nat) : Guild :=
  { g with leaderGuid := leader }.changeRank leader GR_GUILDMASTER

/-- `_CreateRank`. -/
def createRank (name : String) (rights : UInt32) : Guild :=
  if GUILD_RANKS_MAX_COUNT ≤ g.getRanksSize then g
  else
    let info : RankInfo := { rankId := g.getRanksSize, name, rights, bankMoneyPerDay := 0 }
    { g with ranks := g.ranks ++ [info] }

variable {g : Guild} {guid : Nat} {member : Member} {change : Member → Member}

/-- What a rank is depends on the ranks only. -/
theorem getRankInfo_of_ranks {g' : Guild} (h : g'.ranks = g.ranks) (rankId : Nat) :
    g'.getRankInfo rankId = g.getRankInfo rankId := by
  unfold getRankInfo getRanksSize
  rw [h]

theorem getMember_guid (h : g.getMember guid = some member) : member.guid = guid := by
  simpa using find?_some h

theorem getMember_mem (h : g.getMember guid = some member) : member ∈ g.members :=
  mem_of_find?_eq_some h

theorem getMemberByName_mem {name : String} (h : g.getMemberByName name = some member) :
    member ∈ g.members :=
  mem_of_find?_eq_some h

/-- The members of the map are found by their guids. -/
theorem getMember_eq_some (hkeys : (g.members.map Member.guid).Nodup) :
    g.getMember guid = some member ↔ member ∈ g.members ∧ member.guid = guid := by
  constructor
  · intro h
    exact ⟨getMember_mem h, getMember_guid h⟩
  · rintro ⟨hmem, rfl⟩
    unfold getMember
    cases hfind : g.members.find? (·.guid = member.guid) with
    | none =>
      have hnone := find?_eq_none.mp hfind member hmem
      simp at hnone
    | some found =>
      have hguid : found.guid = member.guid := by simpa using find?_some hfind
      rw [inj_on_of_nodup_map hkeys (mem_of_find?_eq_some hfind) hmem hguid]

theorem getMember_eq_none_iff : g.getMember guid = none ↔ guid ∉ g.members.map Member.guid := by
  simp [getMember, find?_eq_none]

/-- A change in place that leaves the guids alone keeps the keys of the map. -/
theorem modifyMember_keys (hguid : ∀ member, (change member).guid = member.guid) :
    (g.modifyMember guid change).members.map Member.guid = g.members.map Member.guid := by
  unfold modifyMember
  rw [map_map]
  apply map_congr_left
  intro member _
  simp only [Function.comp_apply]
  split
  · exact hguid member
  · rfl

/-- A change in place is seen by the lookup of that member only. -/
theorem getMember_modifyMember (hguid : ∀ member, (change member).guid = member.guid)
    (other : Nat) : (g.modifyMember guid change).getMember other =
      if other = guid then (g.getMember other).map change else g.getMember other := by
  have hsame : ∀ member, (if member.guid = guid then change member else member).guid =
      member.guid := by
    intro member
    split
    · exact hguid member
    · rfl
  unfold getMember modifyMember
  rw [find?_map]
  simp only [Function.comp_def, hsame]
  cases hfind : g.members.find? (·.guid = other) with
  | none => simp
  | some member =>
    have hother : member.guid = other := by simpa using find?_some hfind
    rw [Option.map_some, Option.map_some, hother]
    split <;> rfl

/-- Who is in the map after a change in place. -/
theorem mem_modifyMember : member ∈ (g.modifyMember guid change).members ↔
    (member ∈ g.members ∧ member.guid ≠ guid) ∨
      ∃ before ∈ g.members, before.guid = guid ∧ change before = member := by
  unfold modifyMember
  simp only [mem_map]
  constructor
  · rintro ⟨before, hmem, rfl⟩
    by_cases hguid : before.guid = guid
    · rw [if_pos hguid]
      exact .inr ⟨before, hmem, hguid, rfl⟩
    · rw [if_neg hguid]
      exact .inl ⟨hmem, hguid⟩
  · rintro (⟨hmem, hguid⟩ | ⟨before, hmem, hguid, rfl⟩)
    · exact ⟨member, hmem, if_neg hguid⟩
    · exact ⟨before, hmem, if_pos hguid⟩

end Guild

end TrinityCore.Guilds
