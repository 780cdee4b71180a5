import TrinityCore.Guilds.BankMoney
import TrinityCore.Guilds.GuildLeadership

/-!
# Loaded guilds

`Guild::Validate`: a guild as it was loaded, with any ranks, members and leader, is repaired before
it is used: first the ranks, then the ranks of the members, then the leader, and last the members
who rank as guild masters besides him.
-/

namespace TrinityCore.Guilds

open List

def LANG_GUILD_MASTER : Nat := 811
def LANG_GUILD_OFFICER : Nat := 812
def LANG_GUILD_VETERAN : Nat := 813
def LANG_GUILD_MEMBER : Nat := 814
def LANG_GUILD_INITIATE : Nat := 815

namespace RankInfo

/-- `CreateMissingTabsIfNeeded`, for the rights to one tab. -/
def createMissingTab (info : RankInfo) (tab : Nat) (rightsAndSlots : GuildBankRightsAndSlots) :
    GuildBankRightsAndSlots :=
  if rightsAndSlots.tabId.toNat = tab then rightsAndSlots
  else if info.rankId = GR_GUILDMASTER then
    ⟨tab.toUInt8, GUILD_BANK_RIGHT_FULL, GUILD_WITHDRAW_SLOT_UNLIMITED⟩
  else { rightsAndSlots with tabId := tab.toUInt8 }

/-- `CreateMissingTabsIfNeeded`. -/
def createMissingTabsIfNeeded (info : RankInfo) (tabs : Nat) : RankInfo :=
  { info with
    bankTabRightsAndSlots := info.bankTabRightsAndSlots.mapIdx fun tab rightsAndSlots =>
      if tab < tabs then info.createMissingTab tab rightsAndSlots else rightsAndSlots }

end RankInfo

namespace Guild

/-- `_CreateDefaultGuildRanks`, with the texts that the database has for the names. -/
def createDefaultGuildRanks (trinityString : Nat → String) (g : Guild) : Guild :=
  let speaks := GR_RIGHT_GCHATLISTEN ||| GR_RIGHT_GCHATSPEAK
  let g := g.createRank (trinityString LANG_GUILD_MASTER) GR_RIGHT_ALL
  let g := g.createRank (trinityString LANG_GUILD_OFFICER) GR_RIGHT_ALL
  let g := g.createRank (trinityString LANG_GUILD_VETERAN) speaks
  let g := g.createRank (trinityString LANG_GUILD_MEMBER) speaks
  g.createRank (trinityString LANG_GUILD_INITIATE) speaks

/-- `broken_ranks`: too few ranks or too many, or one whose id is not its position. -/
def brokenRanks (g : Guild) : Bool :=
  decide (g.getRanksSize < GUILD_RANKS_MIN_COUNT) ||
    decide (GUILD_RANKS_MAX_COUNT < g.getRanksSize) ||
    (List.range g.getRanksSize).any fun rankId =>
      (g.getRankInfo rankId).any fun rankInfo => decide (rankInfo.rankId ≠ rankId)

/-- `Validate`, the part about ranks, for a bank with so many tabs. -/
def repairRanks (tabs : Nat) (trinityString : Nat → String) (g : Guild) : Guild :=
  if g.brokenRanks then { g with ranks := [] }.createDefaultGuildRanks trinityString
  else
    { g with ranks := g.ranks.mapIdx fun rankId rankInfo =>
        if rankId < g.getRanksSize then rankInfo.createMissingTabsIfNeeded tabs else rankInfo }

/-- `Validate`, the part about the ranks of members. -/
def repairMemberRanks (g : Guild) : Guild :=
  { g with members := g.members.map fun member =>
      if g.getRanksSize < member.rankId then { member with rankId := g.getLowestRankId % 256 }
      else member }

/-- `Validate`, the part about the leader, and whether a guild is left. -/
def repairLeader (g : Guild) : Guild × Bool :=
  match g.getMember g.leaderGuid with
  | none =>
    let g := g.deleteMember g.leaderGuid
    if g.members.isEmpty then (g.disband, false) else (g, true)
  | some leader => (if leader.rankId = GR_GUILDMASTER then g else g.setLeader leader.guid, true)

/-- `Validate`, the part about the members who rank as guild masters and are not the leader. -/
def demoteOthers (g : Guild) : Guild :=
  { g with members := g.members.map fun member =>
      if member.rankId = GR_GUILDMASTER ∧ member.guid ≠ g.leaderGuid then
        { member with rankId := GR_OFFICER }
      else member }

/-- `Validate`. -/
def validate (allowMultipleGuildMaster : Bool) (tabs : Nat) (trinityString : Nat → String)
    (g : Guild) : Guild × Bool :=
  match ((g.repairRanks tabs trinityString).repairMemberRanks).repairLeader with
  | (g, false) => (g, false)
  | (g, true) => (if allowMultipleGuildMaster then g else g.demoteOthers, true)

/-- What a guild is to be after its repair. -/
structure Repaired (g : Guild) : Prop where
  rankIds : g.ranks.map RankInfo.rankId = List.range g.ranks.length
  minCount : GUILD_RANKS_MIN_COUNT ≤ g.ranks.length
  maxCount : g.ranks.length ≤ GUILD_RANKS_MAX_COUNT
  memberRank : ∀ member ∈ g.members, member.rankId < g.ranks.length
  leader : ∃ member ∈ g.members, member.guid = g.leaderGuid ∧ member.rankId = GR_GUILDMASTER
  others : ∀ member ∈ g.members, member.guid ≠ g.leaderGuid → member.rankId ≠ GR_GUILDMASTER

/-- How many ranks the repair leaves. -/
def repairedRanks (g : Guild) : Nat := if g.brokenRanks then 5 else g.ranks.length

/-- The guilds that the repair mends: their ranks are broken or not more than there may be, and
nobody has the rank that follows the last one, apart from the leader, or, where the leader is not a
member, from the only member. -/
def Repairable (g : Guild) : Prop :=
  g.members = [] ∨ g.repairedRanks ≤ GUILD_RANKS_MAX_COUNT ∧
    ∀ member ∈ g.members, member.rankId = g.repairedRanks →
      member.guid = g.leaderGuid ∨ g.getMember g.leaderGuid = none ∧ g.members = [member]

variable {g : Guild} {tabs : Nat} {trinityString : Nat → String}

/-! ### The ranks -/

theorem repairRanks_members : (g.repairRanks tabs trinityString).members = g.members := by
  unfold repairRanks
  split <;> rfl

theorem repairRanks_leaderGuid :
    (g.repairRanks tabs trinityString).leaderGuid = g.leaderGuid := by
  unfold repairRanks
  split <;> rfl

theorem length_repairRanks : (g.repairRanks tabs trinityString).ranks.length = g.repairedRanks := by
  unfold repairRanks repairedRanks
  split
  · rfl
  · simp

theorem minCount_repairedRanks : GUILD_RANKS_MIN_COUNT ≤ g.repairedRanks := by
  unfold repairedRanks
  split
  · decide
  · next hfine =>
    unfold brokenRanks getRanksSize at hfine
    simp only [Bool.or_eq_true, decide_eq_true_eq, not_or, Nat.not_lt] at hfine
    exact hfine.1.1.trans (Nat.mod_le _ _)

theorem rankIds_repairRanks (hmax : g.repairedRanks ≤ GUILD_RANKS_MAX_COUNT) :
    (g.repairRanks tabs trinityString).ranks.map RankInfo.rankId =
      List.range (g.repairRanks tabs trinityString).ranks.length := by
  rw [length_repairRanks]
  unfold repairRanks repairedRanks at *
  split
  · rfl
  · next hfine =>
    rw [if_neg hfine] at hmax
    have hsize : g.getRanksSize = g.ranks.length := Nat.mod_eq_of_lt (Nat.lt_of_le_of_lt hmax (by decide))
    unfold brokenRanks at hfine
    simp only [Bool.or_eq_true, not_or, any_eq_true, not_exists, not_and] at hfine
    apply ext_getElem
    · simp
    · intro i hi hi'
      rw [length_range] at hi'
      have hnot := hfine.2 i (mem_range.mpr (hsize ▸ hi'))
      unfold getRankInfo at hnot
      rw [if_pos (hsize ▸ hi'), getElem?_eq_getElem hi'] at hnot
      have hid : g.ranks[i].rankId = i := by simpa using hnot
      simp only [getElem_map, getElem_mapIdx, getElem_range]
      split
      · exact hid
      · exact hid

/-! ### The leader -/

/-- Everybody with the same guids, and the leader of his guid only, as a guild master. -/
theorem map_setLeader (hkeys : (g.members.map Member.guid).Nodup) {leader : Member}
    (hmem : leader ∈ g.members) (hrank : leader.rankId = GR_GUILDMASTER) :
    g.members.map (fun member =>
      if member.guid = leader.guid then { member with rankId := GR_GUILDMASTER } else member) =
      g.members := by
  conv_rhs => rw [← map_id g.members]
  apply map_congr_left
  intro member hin
  split
  · next hguid =>
    obtain rfl := inj_on_of_nodup_map hkeys hin hmem hguid
    rw [← hrank]
    rfl
  · rfl

/-- Of those who are not passed over, the new leader has the highest rank. -/
theorem foldl_betterLeader_le (members : List Member) (guid : Nat) (best : Option Member) :
    ∀ leader, members.foldl (betterLeader guid) best = some leader →
      (∀ other, best = some other → leader.rankId ≤ other.rankId) ∧
        ∀ other ∈ members, other.guid ≠ guid → leader.rankId ≤ other.rankId := by
  induction members generalizing best with
  | nil =>
    rintro leader rfl
    exact ⟨fun other heq => (Option.some.inj heq) ▸ Nat.le_refl _, nofun⟩
  | cons member members ih =>
    intro leader hleader
    obtain ⟨hbest, hrest⟩ := ih (betterLeader guid best member) leader hleader
    have hstep : (∀ other, best = some other →
        ∃ next, betterLeader guid best member = some next ∧ next.rankId ≤ other.rankId) ∧
        (member.guid ≠ guid →
          ∃ next, betterLeader guid best member = some next ∧ next.rankId ≤ member.rankId) := by
      unfold betterLeader
      split
      · next hguid => exact ⟨fun other heq => ⟨other, heq, Nat.le_refl _⟩, fun hne => absurd hguid hne⟩
      · cases best with
        | none => exact ⟨nofun, fun _ => ⟨member, rfl, Nat.le_refl _⟩⟩
        | some best =>
          dsimp only
          split
          · next hlt =>
            exact ⟨fun other heq => ⟨member, rfl, (Option.some.inj heq) ▸ Nat.le_of_lt hlt⟩,
              fun _ => ⟨member, rfl, Nat.le_refl _⟩⟩
          · next hle =>
            exact ⟨fun other heq => ⟨best, rfl, (Option.some.inj heq) ▸ Nat.le_refl _⟩,
              fun _ => ⟨best, rfl, Nat.le_of_not_lt hle⟩⟩
    refine ⟨fun other heq => ?_, forall_mem_cons.mpr ⟨fun hne => ?_, hrest⟩⟩
    · obtain ⟨next, hnext, hle⟩ := hstep.1 other heq
      exact (hbest next hnext).trans hle
    · obtain ⟨next, hnext, hle⟩ := hstep.2 hne
      exact (hbest next hnext).trans hle

/-- The leader after the repair: the old one if he is a member, and else the first of the members
with the highest rank. -/
structure LeadsAfter (g : Guild) (leader : Member) : Prop where
  mem : leader ∈ g.members
  stays : ∀ old, g.getMember g.leaderGuid = some old → leader.guid = g.leaderGuid
  highest : g.getMember g.leaderGuid = none → ∀ other ∈ g.members, leader.rankId ≤ other.rankId

theorem repairLeader_eq_false (h : g.members = []) : g.repairLeader.2 = false := by
  have hnone : g.getMember g.leaderGuid = none := by simp [getMember, h]
  unfold repairLeader deleteMember
  simp [hnone, newLeader, disband, h]

/-- A guild with members has a leader after the repair, and he ranks as the guild master. -/
theorem repairLeader_spec (hkeys : (g.members.map Member.guid).Nodup) (h : g.members ≠ []) :
    ∃ leader t, g.LeadsAfter leader ∧ g.repairLeader = (t, true) ∧ t.ranks = g.ranks ∧
      t.leaderGuid = leader.guid ∧ t.members = g.members.map fun member =>
        if member.guid = leader.guid then { member with rankId := GR_GUILDMASTER } else member := by
  unfold repairLeader
  split
  · next hnone =>
    have hnot : ∀ member ∈ g.members, member.guid ≠ g.leaderGuid := by
      intro member hmem hguid
      have hsome := (getMember_eq_some hkeys).mpr ⟨hmem, hguid⟩
      rw [hnone] at hsome
      contradiction
    obtain ⟨leader, hleader⟩ : ∃ leader, newLeader g.members g.leaderGuid = some leader := by
      cases hnew : newLeader g.members g.leaderGuid with
      | none =>
        obtain ⟨member, hmem⟩ := exists_mem_of_ne_nil _ h
        exact absurd (newLeader_eq_none hnew member hmem) (hnot member hmem)
      | some leader => exact ⟨leader, rfl⟩
    obtain ⟨hmem, -⟩ := newLeader_eq_some hleader
    have hmembers : (g.deleteMember g.leaderGuid).members = g.members.map fun member =>
        if member.guid = leader.guid then { member with rankId := GR_GUILDMASTER } else member := by
      unfold deleteMember
      rw [if_pos rfl, hleader]
      -- No member has the guid that is erased.
      apply filter_eq_self.mpr
      intro member hin
      obtain ⟨before, hbefore, rfl⟩ := mem_map.mp hin
      have hguid : (if before.guid = leader.guid then { before with rankId := GR_GUILDMASTER % 256 }
          else before).guid = before.guid := by
        split <;> rfl
      exact decide_eq_true (ne_of_eq_of_ne hguid (hnot before hbefore))
    have hsome : (g.deleteMember g.leaderGuid).members.isEmpty = false := by
      rw [hmembers]
      simpa using h
    dsimp only
    rw [if_neg (Bool.eq_false_iff.mp hsome)]
    refine ⟨leader, _, ⟨hmem, fun old hold => ?_, fun _ other hin => ?_⟩, rfl, ?_, ?_, hmembers⟩
    · rw [hnone] at hold
      contradiction
    · exact (foldl_betterLeader_le g.members g.leaderGuid none leader hleader).2 other hin
        (hnot other hin)
    all_goals
      unfold deleteMember
      rw [if_pos rfl, hleader]
      rfl
  · next leader hleader =>
    have hmem := getMember_mem hleader
    have hguid := getMember_guid hleader
    have hleads : g.LeadsAfter leader := ⟨hmem, fun _ _ => hguid, fun hnone => by
      rw [hleader] at hnone
      contradiction⟩
    split
    · next hrank =>
      exact ⟨leader, g, hleads, rfl, rfl, hguid.symm, (map_setLeader hkeys hmem hrank).symm⟩
    · exact ⟨leader, _, hleads, rfl, rfl, rfl, rfl⟩

/-! ### The repair -/

/-- The rank that the repair gives to a member who is not the leader, among so many ranks. -/
def settledRank (ranks rankId : Nat) : Nat :=
  let rankId := if ranks < rankId then ranks - 1 else rankId
  if rankId = GR_GUILDMASTER then GR_OFFICER else rankId

theorem settledRank_lt_iff {ranks rankId : Nat} (hmin : GUILD_RANKS_MIN_COUNT ≤ ranks) :
    settledRank ranks rankId < ranks ↔ rankId ≠ ranks := by
  unfold settledRank
  simp only [GUILD_RANKS_MIN_COUNT, GR_GUILDMASTER, GR_OFFICER] at *
  split <;> split <;> omega

theorem settledRank_ne (ranks rankId : Nat) : settledRank ranks rankId ≠ GR_GUILDMASTER := by
  unfold settledRank
  simp only [GR_GUILDMASTER, GR_OFFICER]
  split <;> split <;> omega

/-- What is left of a guild with members; the sizes of longer lists of ranks do not fit a byte. -/
structure Validated (g g' : Guild) (leader : Member) (repaired : List RankInfo) : Prop where
  ranks : g'.ranks = repaired
  leaderGuid : g'.leaderGuid = leader.guid
  members : repaired.length < 256 → g'.members = g.members.map fun member =>
    { member with rankId :=
        if member.guid = leader.guid then GR_GUILDMASTER
        else settledRank repaired.length member.rankId }

theorem repairMemberRanks_keys :
    g.repairMemberRanks.members.map Member.guid = g.members.map Member.guid := by
  unfold repairMemberRanks
  rw [map_map]
  apply map_congr_left
  intro member _
  dsimp only [Function.comp_apply]
  split <;> rfl

theorem validate_of_nil (h : g.members = []) :
    (g.validate false tabs trinityString).2 = false := by
  have hnil : (g.repairRanks tabs trinityString).repairMemberRanks.members = [] := by
    unfold repairMemberRanks
    rw [repairRanks_members, h]
    rfl
  have hfalse := repairLeader_eq_false hnil
  unfold validate
  generalize ((g.repairRanks tabs trinityString).repairMemberRanks).repairLeader = t at hfalse ⊢
  obtain ⟨t, ok⟩ := t
  cases hfalse
  rfl

/-- The members of a guild keep their guids, and with them the leader, while their ranks change. -/
theorem validate_spec (hkeys : (g.members.map Member.guid).Nodup) (h : g.members ≠ []) :
    ∃ leader g', g.validate false tabs trinityString = (g', true) ∧
      (g.repairRanks tabs trinityString).repairMemberRanks.LeadsAfter leader ∧
      g.Validated g' leader (g.repairRanks tabs trinityString).ranks := by
  have hmin := @minCount_repairedRanks g
  rw [← @length_repairRanks g tabs trinityString] at hmin
  have hmembers := @repairRanks_members g tabs trinityString
  unfold validate
  generalize g.repairRanks tabs trinityString = r at hmin hmembers
  have hguids := @repairMemberRanks_keys r
  rw [hmembers] at hguids
  have hne : r.repairMemberRanks.members ≠ [] := by
    unfold repairMemberRanks
    rw [hmembers]
    simpa using h
  obtain ⟨leader, t, hleads, heq, hsame, hguid, hset⟩ := repairLeader_spec (hguids ▸ hkeys) hne
  rw [heq]
  refine ⟨leader, t.demoteOthers, rfl, hleads, hsame, hguid, fun hmax => ?_⟩
  have hsize : r.getRanksSize = r.ranks.length := Nat.mod_eq_of_lt hmax
  have hlowest : r.getLowestRankId % 256 = r.ranks.length - 1 := by
    unfold getLowestRankId
    rw [GUILD_RANKS_MIN_COUNT] at hmin
    omega
  unfold demoteOthers
  rw [hset, map_map]
  unfold repairMemberRanks
  rw [map_map, hmembers]
  apply map_congr_left
  intro member _
  dsimp only [Function.comp_apply]
  rw [hsize, hlowest, hguid]
  unfold settledRank
  by_cases hleader : member.guid = leader.guid
  · by_cases hclamp : r.ranks.length < member.rankId <;> simp [hclamp, hleader]
  · by_cases hclamp : r.ranks.length < member.rankId
    · by_cases hmaster : r.ranks.length - 1 = GR_GUILDMASTER <;> simp [hclamp, hleader, hmaster]
    · by_cases hmaster : member.rankId = GR_GUILDMASTER
      · simp [hleader, hmaster, GR_GUILDMASTER]
      · simp [hclamp, hleader, hmaster]

/-- The repair leaves a guild in order, and refuses only one without members. -/
def Repairs (tabs : Nat) (trinityString : Nat → String) (g : Guild) : Prop :=
  ((g.validate false tabs trinityString).2 = true →
    (g.validate false tabs trinityString).1.Repaired) ∧
    ((g.validate false tabs trinityString).2 = false ↔ g.members = [])

/-- Who leads the guild after the repair, among its members before it. -/
theorem LeadsAfter.of_repaired {leader : Member}
    (h : (g.repairRanks tabs trinityString).repairMemberRanks.LeadsAfter leader)
    (hmax : g.repairedRanks < 256) : ∃ first ∈ g.members, first.guid = leader.guid ∧
      (g.getMember g.leaderGuid ≠ none → first.guid = g.leaderGuid) ∧
      (g.getMember g.leaderGuid = none → first.rankId = g.repairedRanks →
        ∀ other ∈ g.members, other.rankId = g.repairedRanks) := by
  have hmin := @minCount_repairedRanks g
  have hlength := @length_repairRanks g tabs trinityString
  have hmembers := @repairRanks_members g tabs trinityString
  have hleaderGuid := @repairRanks_leaderGuid g tabs trinityString
  generalize g.repairRanks tabs trinityString = r at h hlength hmembers hleaderGuid
  have hnone : r.repairMemberRanks.getMember r.repairMemberRanks.leaderGuid = none ↔
      g.getMember g.leaderGuid = none := by
    rw [getMember_eq_none_iff, getMember_eq_none_iff, repairMemberRanks_keys, hmembers,
      show r.repairMemberRanks.leaderGuid = g.leaderGuid from hleaderGuid]
  have hsize : r.getRanksSize = g.repairedRanks := hlength ▸ Nat.mod_eq_of_lt (hlength ▸ hmax)
  have hlowest : r.getLowestRankId % 256 = g.repairedRanks - 1 := by
    unfold getLowestRankId
    rw [GUILD_RANKS_MIN_COUNT] at hmin
    omega
  obtain ⟨first, hfirst, hleader⟩ := mem_map.mp h.mem
  rw [hmembers] at hfirst
  have hguid : first.guid = leader.guid := by
    rw [← hleader]
    split <;> rfl
  refine ⟨first, hfirst, hguid, fun hsome => ?_, fun hleft hrank other hother => ?_⟩
  · obtain ⟨old, hold⟩ := Option.ne_none_iff_exists'.mp (mt hnone.mp hsome)
    exact hguid.trans ((h.stays old hold).trans hleaderGuid)
  · -- The highest rank is the one after the last, which nobody gets who did not have it.
    have hhighest := h.highest (hnone.mpr hleft) _ (mem_map_of_mem (hmembers.symm ▸ hother))
    rw [← hleader, hsize, hlowest, hrank, if_neg (Nat.lt_irrefl _), hrank] at hhighest
    split at hhighest
    · dsimp only at hhighest
      rw [GUILD_RANKS_MIN_COUNT] at hmin
      omega
    · omega

/-- Exactly the guilds without members and those in which no other member has the rank after the
last one are mended, as long as there are not too many ranks. -/
theorem repairs_iff_repairable (hkeys : (g.members.map Member.guid).Nodup) :
    Repairs tabs trinityString g ↔ g.Repairable := by
  unfold Repairs Repairable
  by_cases hnil : g.members = []
  · rw [validate_of_nil hnil]
    simp [hnil]
  · obtain ⟨leader, g', heq, hleads, hvalidated⟩ := validate_spec hkeys hnil
    have hmin := @minCount_repairedRanks g
    have hlength := @length_repairRanks g tabs trinityString
    rw [heq]
    simp only [forall_const, Bool.true_eq_false, hnil, and_true, false_or]
    constructor
    · intro hrepaired
      have hmax := hrepaired.maxCount
      rw [hvalidated.ranks, hlength] at hmax
      have hmembers := hvalidated.members (by rw [hlength]; exact Nat.lt_of_le_of_lt hmax (by decide))
      refine ⟨hmax, fun member hmem hrank => ?_⟩
      -- Whoever has the rank after the last is the new leader.
      have hled : ∀ member ∈ g.members, member.rankId = g.repairedRanks →
          member.guid = leader.guid := by
        intro member hmem hrank
        by_contra hne
        have hlt := hrepaired.memberRank _ (hmembers ▸ mem_map_of_mem hmem)
        rw [if_neg hne, hvalidated.ranks, hlength, settledRank_lt_iff hmin] at hlt
        exact hlt hrank
      obtain ⟨first, hfirst, hguid, hstays, hall⟩ :=
        hleads.of_repaired (Nat.lt_of_le_of_lt hmax (by decide))
      have hsame := inj_on_of_nodup_map hkeys hmem hfirst ((hled member hmem hrank).trans hguid.symm)
      subst hsame
      by_cases hleft : g.getMember g.leaderGuid = none
      · right
        refine ⟨hleft, ?_⟩
        have honly : ∀ other ∈ g.members, other = member := by
          intro other hother
          apply inj_on_of_nodup_map hkeys hother hmem
          exact (hled other hother (hall hleft hrank other hother)).trans hguid.symm
        obtain ⟨count, hcount⟩ : ∃ count, g.members = replicate count member :=
          ⟨_, eq_replicate_of_mem honly⟩
        rw [hcount, map_replicate, nodup_replicate] at hkeys
        rw [hcount, mem_replicate] at hmem
        rw [hcount, show count = 1 by omega]
        rfl
      · exact Or.inl (hstays hleft)
    · rintro ⟨hmax, hfits⟩
      have hlt : g.repairedRanks < 256 := Nat.lt_of_le_of_lt hmax (by decide)
      have hmembers := hvalidated.members (by rw [hlength]; exact hlt)
      obtain ⟨first, hfirst, hguid, hstays, -⟩ := hleads.of_repaired hlt
      have hothers : ∀ member ∈ g.members, member.guid ≠ leader.guid →
          member.rankId ≠ g.repairedRanks := by
        intro member hmem hne hrank
        rcases hfits member hmem hrank with hleader | ⟨-, honly⟩
        · have hsome : g.getMember g.leaderGuid ≠ none := by
            rw [Ne, getMember_eq_none_iff, not_not, ← hleader]
            exact mem_map_of_mem hmem
          exact hne (hleader.trans ((hstays hsome).symm.trans hguid))
        · rw [honly, mem_singleton] at hfirst
          exact hne (hfirst ▸ hguid)
      refine ⟨?_, ?_, ?_, ?_, ?_, ?_⟩
      · rw [hvalidated.ranks]
        exact rankIds_repairRanks hmax
      · rw [hvalidated.ranks, hlength]
        exact hmin
      · rw [hvalidated.ranks, hlength]
        exact hmax
      · rw [hmembers, hvalidated.ranks, hlength]
        intro after hafter
        obtain ⟨member, hmem, rfl⟩ := mem_map.mp hafter
        dsimp only
        split
        · exact Nat.lt_of_lt_of_le (by decide) hmin
        · next hne => exact (settledRank_lt_iff hmin).mpr (hothers member hmem hne)
      · rw [hmembers, hvalidated.leaderGuid]
        exact ⟨_, mem_map_of_mem hfirst, hguid, if_pos hguid⟩
      · rw [hmembers, hvalidated.leaderGuid]
        intro after hafter
        obtain ⟨member, hmem, rfl⟩ := mem_map.mp hafter
        intro hne
        dsimp only at hne ⊢
        rw [if_neg hne]
        exact settledRank_ne _ _

end Guild

/-- The ranks that a small guild has, three of them. -/
def loadedRanks : List RankInfo :=
  [⟨0, "Guild Master", GR_RIGHT_ALL, 0, []⟩, ⟨1, "Officer", GR_RIGHT_ALL, 0, []⟩,
    ⟨2, "Initiate", GR_RIGHT_EMPTY, 0, []⟩]

/-- A loaded guild whose leader left it to a member of a rank that does not exist. -/
def leftGuild : Guild where
  id := 1
  ranks := loadedRanks
  members := [{ guid := 11, name := "Bert", rankId := 7 }, { guid := 12, name := "Cleo", rankId := 0 }]
  leaderGuid := 10
  guildIds := fun _ => 1

theorem repairs_iff_repairable_left :
    Guild.Repairs 0 (fun _ => "") leftGuild ↔ leftGuild.Repairable :=
  Guild.repairs_iff_repairable (by decide)

/-- A member of the rank that follows the last one keeps it. -/
theorem not_repairs_after_last :
    ¬∀ (g : Guild) (tabs : Nat) (trinityString : Nat → String),
      (g.members.map Member.guid).Nodup → Guild.Repairs tabs trinityString g := by
  intro hall
  let guild : Guild :=
    { leftGuild with
      members := [{ guid := 10, name := "Anna", rankId := 0 },
        { guid := 11, name := "Bert", rankId := 3 }] }
  have hrepaired := (hall guild 0 (fun _ => "") (by decide)).1 rfl
  have hrank := hrepaired.memberRank { guid := 11, name := "Bert", rankId := 3 }
    (mem_cons_of_mem _ mem_cons_self)
  exact absurd hrank (by decide)

end TrinityCore.Guilds
