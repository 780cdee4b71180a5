import Mathlib.Data.List.InsertIdx
import TrinityCore.Guilds.GuildRanks

/-!
# Guilds in order

A request keeps a guild in order exactly when it fits: each operation changes the members, the
ranks or the leader, and what it writes has to agree with the two others.
-/

namespace TrinityCore.Guilds

open List Option

open StateMachine

variable {rankId player inactiveDays : Nat}

namespace Guild

variable {g : Guild} {guid newRank : Nat} {member : Member}

/-! ### The parts of a guild -/

theorem Valid.getRanksSize (h : g.Valid) : g.getRanksSize = g.ranks.length := by
  have hmax := h.maxCount
  unfold Guild.getRanksSize
  rw [GUILD_RANKS_MAX_COUNT] at hmax
  omega

theorem Valid.getLowestRankId (h : g.Valid) : g.getLowestRankId = g.ranks.length - 1 := by
  have hmin := h.minCount
  have hmax := h.maxCount
  unfold Guild.getLowestRankId
  simp only [GUILD_RANKS_MIN_COUNT, GUILD_RANKS_MAX_COUNT] at hmin hmax
  omega

theorem Valid.getMember_leader (h : g.Valid) : ∃ leader, g.getMember g.leaderGuid = some leader := by
  obtain ⟨leader, hmem, hguid⟩ := h.leader
  exact ⟨leader, (getMember_eq_some h.keys).mpr ⟨hmem, hguid⟩⟩

/-- Other members and another leader, with the same ranks. -/
theorem Valid.of_members (h : g.Valid) {g' : Guild} (hid : g'.id = g.id) (hranks : g'.ranks = g.ranks)
    (hkeys : (g'.members.map Member.guid).Nodup)
    (hknown : ∀ member ∈ g'.members, g'.guildIds member.guid ≠ 0)
    (hleader : ∃ member ∈ g'.members, member.guid = g'.leaderGuid)
    (hrank : ∀ member ∈ g'.members, member.rankId < g.ranks.length ∧
      (member.rankId = GR_GUILDMASTER ↔ member.guid = g'.leaderGuid)) : g'.Valid where
  id := hid ▸ h.id
  rankIds := hranks ▸ h.rankIds
  minCount := hranks ▸ h.minCount
  maxCount := hranks ▸ h.maxCount
  keys := hkeys
  known := hknown
  memberRank member hmem := hranks ▸ (hrank member hmem).1
  leader := hleader
  leaderRank member hmem := (hrank member hmem).2

/-- The same members with other ranks. -/
theorem Valid.of_keys (h : g.Valid) {g' : Guild} (hid : g'.id = g.id) (hranks : g'.ranks = g.ranks)
    (hids : g'.guildIds = g.guildIds) (hkeys : g'.members.map Member.guid = g.members.map Member.guid)
    (hleader : ∃ member ∈ g.members, member.guid = g'.leaderGuid)
    (hrank : ∀ member ∈ g'.members, member.rankId < g.ranks.length ∧
      (member.rankId = GR_GUILDMASTER ↔ member.guid = g'.leaderGuid)) : g'.Valid := by
  have hmem : ∀ guid, (∃ member ∈ g'.members, member.guid = guid) ↔
      ∃ member ∈ g.members, member.guid = guid := by
    intro guid
    simp only [← List.mem_map, hkeys]
  apply h.of_members hid hranks (hkeys ▸ h.keys) _ ((hmem _).mpr hleader) hrank
  intro member hin
  obtain ⟨before, hbefore, hguid⟩ := (hmem _).mp ⟨member, hin, rfl⟩
  rw [hids, ← hguid]
  exact h.known before hbefore

/-! ### One member's rank -/

theorem changeRank_keys : (g.changeRank guid newRank).members.map Member.guid =
    g.members.map Member.guid :=
  modifyMember_keys fun _ => rfl

theorem mem_changeRank : member ∈ (g.changeRank guid newRank).members ↔
    (member ∈ g.members ∧ member.guid ≠ guid) ∨
      ∃ before ∈ g.members, before.guid = guid ∧ { before with rankId := newRank % 256 } = member :=
  mem_modifyMember

/-- A member's rank may become one that exists, and the leader's exactly if he is the leader. -/
theorem Valid.changeRank_iff (h : g.Valid) (hmem : member ∈ g.members) :
    (g.changeRank member.guid newRank).Valid ↔ newRank % 256 < g.ranks.length ∧
      (newRank % 256 = GR_GUILDMASTER ↔ member.guid = g.leaderGuid) := by
  constructor
  · intro hvalid
    have hin : { member with rankId := newRank % 256 } ∈
        (g.changeRank member.guid newRank).members :=
      mem_changeRank.mpr (.inr ⟨member, hmem, rfl, rfl⟩)
    exact ⟨hvalid.memberRank _ hin, hvalid.leaderRank _ hin⟩
  · rintro ⟨hlt, hleader⟩
    refine h.of_keys ?_ ?_ ?_ changeRank_keys h.leader ?_
    iterate 3 rfl
    intro other hother
    rcases mem_changeRank.mp hother with ⟨hin, -⟩ | ⟨before, hin, hguid, rfl⟩
    · exact ⟨h.memberRank other hin, h.leaderRank other hin⟩
    · refine ⟨hlt, hleader.trans ?_⟩
      dsimp only
      rw [hguid]
      rfl

/-! ### Joining -/

theorem Valid.not_mem_of_guildId (h : g.Valid) (hfree : g.guildIds guid = 0) :
    ∀ member ∈ g.members, member.guid ≠ guid := by
  rintro member hmem rfl
  exact h.known member hmem hfree

theorem Valid.addMember_iff (h : g.Valid) {name : Option String} :
    (g.addMember guid rankId name).Valid ↔ (GuildRequest.addMember guid rankId name).Fits g := by
  unfold addMember GuildRequest.Fits
  rw [h.getRanksSize]
  split
  · next hin =>
    exact iff_of_true h fun hfree => absurd hfree hin
  · next hfree =>
    rw [not_not] at hfree
    cases name with
    | none => exact iff_of_true h fun _ hne => absurd rfl hne
    | some name =>
      dsimp only
      have hothers := h.not_mem_of_guildId hfree
      have hsame : g.members.filter (·.guid ≠ guid) = g.members := by
        rw [filter_eq_self]
        intro member hmem
        exact decide_eq_true (hothers member hmem)
      have hleader : guid ≠ g.leaderGuid := by
        obtain ⟨leader, hmem, hguid⟩ := h.leader
        rw [← hguid]
        exact (hothers leader hmem).symm
      rw [hsame]
      constructor
      · intro hvalid _ _
        have hin := mem_append_right g.members (mem_singleton_self
          { guid, name, rankId := if rankId = GUILD_RANK_NONE then g.getLowestRankId else rankId })
        have hrank := hvalid.memberRank _ hin
        have hmaster := hvalid.leaderRank _ hin
        by_cases hnone : rankId = GUILD_RANK_NONE
        · exact .inl hnone
        · simp only [if_neg hnone] at hrank hmaster
          exact .inr ⟨fun heq => hleader (hmaster.mp heq), hrank⟩
      · intro hfits
        have hmin := h.minCount
        apply h.of_members
        · rfl
        · rfl
        · rw [map_append, nodup_append]
          refine ⟨h.keys, nodup_singleton _, ?_⟩
          rintro key hkey _ hnew
          obtain ⟨member, hmem, rfl⟩ := mem_map.mp hkey
          rw [mem_singleton.mp hnew]
          exact hothers member hmem
        · intro member hmem
          dsimp only
          rcases mem_append.mp hmem with hin | hnew
          · rw [Function.update_of_ne (hothers member hin)]
            exact h.known member hin
          · rw [mem_singleton.mp hnew, Function.update_self]
            exact h.id
        · obtain ⟨leader, hmem, hguid⟩ := h.leader
          exact ⟨leader, mem_append_left _ hmem, hguid⟩
        · intro member hmem
          rcases mem_append.mp hmem with hin | hnew
          · exact ⟨h.memberRank member hin, h.leaderRank member hin⟩
          · rw [mem_singleton.mp hnew]
            dsimp only
            rw [iff_false_right hleader, h.getLowestRankId]
            simp only [GUILD_RANKS_MIN_COUNT, GR_GUILDMASTER] at *
            split
            · omega
            · next hnot =>
              have hrank := (hfits hfree nofun).resolve_left hnot
              exact hrank.symm

/-! ### Leaving -/

/-- The search for a new leader ends with one of the others, if there are any. -/
theorem foldl_betterLeader (members : List Member) (best : Option Member) :
    match members.foldl (betterLeader guid) best with
    | none => best = none ∧ ∀ member ∈ members, member.guid = guid
    | some leader => best = some leader ∨ leader ∈ members ∧ leader.guid ≠ guid := by
  induction members generalizing best with
  | nil =>
    cases best with
    | none => exact ⟨rfl, nofun⟩
    | some leader => exact .inl rfl
  | cons member members ih =>
    have hstep : betterLeader guid best member = best ∧ (best = none → member.guid = guid) ∨
        betterLeader guid best member = some member ∧ member.guid ≠ guid := by
      unfold betterLeader
      split
      · next hguid => exact .inl ⟨rfl, fun _ => hguid⟩
      · next hguid =>
        cases best with
        | none => exact .inr ⟨rfl, hguid⟩
        | some best =>
          dsimp only
          split
          · exact .inr ⟨rfl, hguid⟩
          · exact .inl ⟨rfl, nofun⟩
    have hrest := ih (betterLeader guid best member)
    rw [foldl_cons]
    split
    · next hnone =>
      rw [hnone] at hrest
      obtain ⟨hbest, hall⟩ := hrest
      rcases hstep with ⟨hsame, hguid⟩ | ⟨hnew, -⟩
      · rw [hsame] at hbest
        exact ⟨hbest, forall_mem_cons.mpr ⟨hguid hbest, hall⟩⟩
      · rw [hbest] at hnew
        contradiction
    · next leader hsome =>
      rw [hsome] at hrest
      rcases hrest with hbest | ⟨hmem, hne⟩
      · rcases hstep with ⟨hsame, -⟩ | ⟨hnew, hne⟩
        · exact .inl (hsame.symm.trans hbest)
        · rw [hnew] at hbest
          cases hbest
          exact .inr ⟨mem_cons_self, hne⟩
      · exact .inr ⟨mem_cons_of_mem _ hmem, hne⟩

theorem newLeader_eq_some {members : List Member} {leader : Member}
    (h : newLeader members guid = some leader) : leader ∈ members ∧ leader.guid ≠ guid := by
  have hfold := @foldl_betterLeader guid members none
  unfold newLeader at h
  rw [h] at hfold
  exact hfold.resolve_left nofun

theorem newLeader_eq_none {members : List Member} (h : newLeader members guid = none) :
    ∀ member ∈ members, member.guid = guid := by
  have hfold := @foldl_betterLeader guid members none
  unfold newLeader at h
  rw [h] at hfold
  exact hfold.2

/-- Where the leader is not the one that goes, and all other ranks are right, an erased member
leaves a guild in order. -/
theorem Valid.eraseMember (h : g.Valid) {t : Guild} (hid : t.id = g.id) (hranks : t.ranks = g.ranks)
    (hids : t.guildIds = g.guildIds) (hkeys : t.members.map Member.guid = g.members.map Member.guid)
    (hleader : ∃ member ∈ t.members, member.guid = t.leaderGuid) (hstays : t.leaderGuid ≠ guid)
    (hrank : ∀ member ∈ t.members, member.guid ≠ guid → member.rankId < g.ranks.length ∧
      (member.rankId = GR_GUILDMASTER ↔ member.guid = t.leaderGuid)) :
    (t.eraseMember guid).Valid := by
  have hmem : ∀ member, member ∈ (t.eraseMember guid).members ↔
      member ∈ t.members ∧ member.guid ≠ guid := by
    intro member
    unfold Guild.eraseMember
    simp
  apply h.of_members
  · exact hid
  · exact hranks
  · have hsub : (t.eraseMember guid).members.Sublist t.members := filter_sublist
    exact (hkeys ▸ h.keys).sublist (hsub.map _)
  · intro member hin
    obtain ⟨hold, hne⟩ := (hmem member).mp hin
    have hkey : member.guid ∈ g.members.map Member.guid := hkeys ▸ mem_map_of_mem hold
    obtain ⟨before, hbefore, hguid⟩ := mem_map.mp hkey
    unfold Guild.eraseMember
    dsimp only
    rw [Function.update_of_ne hne, hids, ← hguid]
    exact h.known before hbefore
  · obtain ⟨leader, hin, hguid⟩ := hleader
    exact ⟨leader, (hmem leader).mpr ⟨hin, hguid ▸ hstays⟩, hguid⟩
  · intro member hin
    obtain ⟨hold, hne⟩ := (hmem member).mp hin
    exact hrank member hold hne

theorem Valid.deleteMember (h : g.Valid) (hleaves : ∃ member ∈ g.members, member.guid ≠ guid) :
    (g.deleteMember guid).Valid := by
  unfold Guild.deleteMember
  split
  · next hguid =>
    split
    · next hnone =>
      obtain ⟨member, hmem, hne⟩ := hleaves
      exact absurd (newLeader_eq_none hnone member hmem) hne
    · next leader hsome =>
      obtain ⟨hmem, hne⟩ := newLeader_eq_some hsome
      have hset : ∀ member, member ∈ (g.setLeader leader.guid).members →
          member ∈ g.members ∧ member.guid ≠ leader.guid ∨
            member.guid = leader.guid ∧ member.rankId = GR_GUILDMASTER := by
        intro member hin
        rcases mem_changeRank.mp hin with hold | ⟨before, -, hbefore, rfl⟩
        · exact .inl hold
        · exact .inr ⟨hbefore, rfl⟩
      refine h.eraseMember ?_ ?_ ?_ changeRank_keys ?_ hne ?_
      iterate 3 rfl
      · exact ⟨_, mem_changeRank.mpr (.inr ⟨leader, hmem, rfl, rfl⟩), rfl⟩
      · intro member hin hother
        have hmin := h.minCount
        rcases hset member hin with ⟨hold, hnot⟩ | ⟨hnew, hrank⟩
        · refine ⟨h.memberRank member hold, iff_of_false ?_ hnot⟩
          rw [h.leaderRank member hold, hguid]
          exact hother
        · refine ⟨?_, iff_of_true hrank hnew⟩
          rw [hrank]
          exact Nat.lt_of_lt_of_le (by decide) hmin
  · next hguid =>
    exact h.eraseMember rfl rfl rfl rfl h.leader hguid fun member hmem _ =>
      ⟨h.memberRank member hmem, h.leaderRank member hmem⟩

/-! ### Ranks of members -/

theorem hasRankRight_getMember {right : UInt32} (h : g.hasRankRight player right = true) :
    ∃ memberMe, g.getMember player = some memberMe := by
  unfold hasRankRight at h
  split at h
  · next memberMe hget => exact ⟨memberMe, hget⟩
  · contradiction

/-- Who promotes or demotes moves only members below him, to ranks below him that exist. -/
theorem Valid.handleUpdateMemberRank (h : g.Valid) {demote : Bool} :
    ∃ t, g.handleUpdateMemberRank player guid demote = some t ∧ t.Valid := by
  unfold Guild.handleUpdateMemberRank
  cases hright : g.hasRankRight player (if demote then GR_RIGHT_DEMOTE else GR_RIGHT_PROMOTE) with
  | false => exact ⟨g, rfl, h⟩
  | true =>
    obtain ⟨memberMe, hme⟩ := hasRankRight_getMember hright
    rw [if_neg (by decide)]
    split
    · exact ⟨g, rfl, h⟩
    · next member hget =>
      split
      · exact ⟨g, rfl, h⟩
      · rw [hme]
        dsimp only
        generalize hrefused : (if demote = true then decide (member.rankId ≤ memberMe.rankId) ||
          decide (g.getLowestRankId ≤ member.rankId)
          else decide (member.rankId ≤ (memberMe.rankId + 1) % 256)) = refused
        cases refused with
        | true => exact ⟨g, rfl, h⟩
        | false =>
          have hmem := getMember_mem hget
          have hlt := h.memberRank member hmem
          have hmax := h.maxCount
          have hleader := h.leaderRank member hmem
          rw [h.getLowestRankId] at hrefused
          refine ⟨_, rfl, ?_⟩
          rw [← getMember_guid hget, h.changeRank_iff hmem, ← hleader]
          simp only [GUILD_RANKS_MAX_COUNT, GR_GUILDMASTER] at hmax ⊢
          cases demote with
          | true =>
            simp only [if_true, Bool.or_eq_false_iff, decide_eq_false_iff_not] at hrefused ⊢
            omega
          | false =>
            simp only [Bool.false_eq_true, if_false, decide_eq_false_iff_not] at hrefused ⊢
            have hmeRank := h.memberRank memberMe (getMember_mem hme)
            omega

theorem Valid.handleSetMemberRank_iff (h : g.Valid) {rank : Nat} :
    (∃ t, g.handleSetMemberRank player guid rank = some t ∧ t.Valid) ↔
      (GuildRequest.setMemberRank player guid rank).Fits g := by
  unfold Guild.handleSetMemberRank GuildRequest.Fits
  dsimp only
  cases hget : g.getMember guid with
  | none => simp
  | some member =>
    have hguid := getMember_guid hget
    have hiff := @h.changeRank_iff g rank member (getMember_mem hget)
    rw [hguid] at hiff
    simp only [hguid, some.injEq, exists_eq_left']
    rw [h.getRanksSize]
    cases g.hasRankRight player (if member.rankId < rank then GR_RIGHT_DEMOTE else GR_RIGHT_PROMOTE) with
    | false => simp [h]
    | true =>
      by_cases hself : guid = player
      · simp [hself, h]
      · simp [hself, hiff]

/-! ### The guild master -/

theorem newGuildMaster_mem {name : String} {isSelfPromote : Bool}
    (h : g.newGuildMaster player name isSelfPromote inactiveDays = some member) :
    member ∈ g.members := by
  unfold newGuildMaster at h
  split at h
  · exact getMember_mem (filter_eq_some_iff.mp h).1
  · split at h
    · exact getMemberByName_mem h
    · contradiction

/-- The new leader is in order if he is not the old one, and if the old one gets a rank that
exists. -/
theorem Valid.replaceLeader_iff (h : g.Valid) (hmem : member ∈ g.members) :
    ((g.setLeader member.guid).changeRank g.leaderGuid GR_INITIATE).Valid ↔
      member.guid ≠ g.leaderGuid ∧ GR_INITIATE < g.ranks.length := by
  have hinitiate : GR_INITIATE % 256 ≠ GR_GUILDMASTER := by decide
  have hmaster : GR_GUILDMASTER % 256 < GUILD_RANKS_MIN_COUNT := by decide
  obtain ⟨old, hold, hguid⟩ := h.leader
  have hset : ∀ {before : Member}, before ∈ g.members →
      ∃ after ∈ (g.setLeader member.guid).members, after.guid = before.guid := by
    intro before hbefore
    have hkey := mem_map_of_mem (f := Member.guid) hbefore
    rw [← @changeRank_keys { g with leaderGuid := member.guid } member.guid GR_GUILDMASTER] at hkey
    exact mem_map.mp hkey
  constructor
  · intro hvalid
    obtain ⟨after, hafter, hsame⟩ := hset hold
    have hin : { after with rankId := GR_INITIATE % 256 } ∈
        ((g.setLeader member.guid).changeRank g.leaderGuid GR_INITIATE).members :=
      mem_changeRank.mpr (.inr ⟨after, hafter, hsame.trans hguid, rfl⟩)
    refine ⟨fun heq => ?_, hvalid.memberRank _ hin⟩
    have hrank := (hvalid.leaderRank _ hin).mpr ((hsame.trans hguid).trans heq.symm)
    exact hinitiate hrank
  · rintro ⟨hne, hlt⟩
    refine h.of_keys ?_ ?_ ?_ (changeRank_keys.trans changeRank_keys) ⟨member, hmem, rfl⟩ ?_
    iterate 3 rfl
    intro other hother
    have hmin := h.minCount
    rcases mem_changeRank.mp hother with ⟨hin, hnot⟩ | ⟨before, -, hbefore, rfl⟩
    · rcases mem_changeRank.mp hin with ⟨hin, hother⟩ | ⟨before, -, hbefore, rfl⟩
      · refine ⟨h.memberRank other hin, iff_of_false ?_ hother⟩
        rw [h.leaderRank other hin]
        exact hnot
      · exact ⟨Nat.lt_of_lt_of_le hmaster hmin, iff_of_true rfl hbefore⟩
    · refine ⟨hlt, iff_of_false hinitiate ?_⟩
      intro heq
      exact hne (heq.symm.trans hbefore)

theorem Valid.handleSetNewGuildMaster_iff (h : g.Valid) {name : String} {isSelfPromote : Bool} :
    (∃ t, g.handleSetNewGuildMaster player name isSelfPromote inactiveDays = some t ∧ t.Valid) ↔
      (GuildRequest.setNewGuildMaster player name isSelfPromote inactiveDays).Fits g := by
  obtain ⟨leader, hleader⟩ := h.getMember_leader
  have hguid := getMember_guid hleader
  unfold Guild.handleSetNewGuildMaster GuildRequest.Fits
  rw [hleader]
  dsimp only
  cases hnew : g.newGuildMaster player name isSelfPromote inactiveDays with
  | none => simp [h]
  | some member =>
    have hiff := h.replaceLeader_iff (newGuildMaster_mem hnew)
    simp [hguid, hiff, h.getRanksSize]

/-! ### The ranks -/

theorem Valid.handleAddNewRank (h : g.Valid) {name : String} :
    (g.handleAddNewRank player name).Valid := by
  unfold Guild.handleAddNewRank
  split
  · exact h
  · split
    · unfold createRank
      split
      · exact h
      · next hroom =>
        rw [h.getRanksSize] at hroom ⊢
        have hmin := h.minCount
        refine ⟨h.id, ?_, ?_, ?_, h.keys, h.known, ?_, h.leader, h.leaderRank⟩
        · simp [h.rankIds, range_succ]
        · simp only [length_append, length_singleton]
          omega
        · simp only [length_append, length_singleton]
          omega
        · intro member hmem
          have hlt := h.memberRank member hmem
          simp only [length_append, length_singleton]
          omega
    · exact h

/-- Only the last rank can go, and no member may have it. -/
theorem Valid.eraseIdx_iff (h : g.Valid) (hlt : rankId < g.ranks.length)
    (hmany : GUILD_RANKS_MIN_COUNT < g.ranks.length) :
    ({ g with ranks := g.ranks.eraseIdx rankId } : Guild).Valid ↔
      rankId = g.getLowestRankId ∧ ∀ member ∈ g.members, member.rankId ≠ rankId := by
  have hlength : (g.ranks.eraseIdx rankId).length = g.ranks.length - 1 := length_eraseIdx_of_lt hlt
  have hids : (g.ranks.eraseIdx rankId).map RankInfo.rankId =
      (range g.ranks.length).eraseIdx rankId := by
    rw [← eraseIdx_map, h.rankIds]
  rw [h.getLowestRankId]
  constructor
  · intro hvalid
    have hrange := hvalid.rankIds
    dsimp only at hrange
    rw [hids, hlength] at hrange
    have hlast : rankId = g.ranks.length - 1 := by
      by_contra hne
      have hget := congrArg (fun l => l[rankId]?) hrange
      rw [getElem?_eraseIdx_of_ge (Nat.le_refl _), getElem?_range (by omega),
        getElem?_range (by omega)] at hget
      have := some.inj hget
      omega
    refine ⟨hlast, fun member hmem => ?_⟩
    have hrank := hvalid.memberRank member hmem
    dsimp only at hrank
    omega
  · rintro ⟨hlast, hnone⟩
    have hmax := h.maxCount
    refine ⟨h.id, ?_, ?_, ?_, h.keys, h.known, ?_, h.leader, h.leaderRank⟩
    · dsimp only
      rw [hids, hlength, hlast]
      have hrange := range_succ (n := g.ranks.length - 1)
      rw [Nat.succ_eq_add_one, Nat.sub_add_cancel (by omega)] at hrange
      have hdrop := @List.eraseIdx_length_sub_one _ (range g.ranks.length)
      rw [length_range] at hdrop
      rw [hdrop, hrange, dropLast_concat]
    · dsimp only
      omega
    · dsimp only
      omega
    · intro member hmem
      have hrank := h.memberRank member hmem
      have hne := hnone member hmem
      dsimp only
      omega

theorem Valid.handleRemoveRank_iff (h : g.Valid) :
    (g.handleRemoveRank player rankId).Valid ↔ (GuildRequest.removeRank player rankId).Fits g := by
  unfold Guild.handleRemoveRank GuildRequest.Fits
  rw [h.getRanksSize]
  split
  · next hrefused =>
    refine iff_of_true h fun hmany hlt hleader => ?_
    simp only [Bool.or_eq_true, decide_eq_true_eq, hleader, Bool.not_true, Bool.false_eq_true,
      or_false] at hrefused
    omega
  · next haccepted =>
    simp only [Bool.or_eq_true, decide_eq_true_eq, not_or, Bool.not_eq_true', Bool.not_eq_false,
      Nat.not_le] at haccepted
    obtain ⟨⟨hmany, hlt⟩, hleader⟩ := haccepted
    rw [h.eraseIdx_iff hlt hmany]
    exact ⟨fun hlast _ _ _ => hlast, fun hall => hall hmany hlt hleader⟩

end Guild

/-! ### Runs -/

/-- A request keeps a guild in order exactly when it fits. -/
theorem validState_handle_iff {g : Guild} (h : g.Valid) {request : GuildRequest}
    (hleaves : request.Leaves (some g)) : ValidState (g.handle request) ↔ request.Fits g := by
  have hkeeps : ∀ {t : Guild}, t.Valid → ValidState (some t) := fun ht => ⟨_, rfl, ht⟩
  have hsome : ∀ {t : Guild}, ValidState (some t) ↔ t.Valid :=
    ⟨fun ⟨_, heq, ht⟩ => some.inj heq ▸ ht, hkeeps⟩
  cases request with
  | addMember guid rankId name => exact hsome.trans h.addMember_iff
  | deleteMember guid => exact iff_of_true (hkeeps (h.deleteMember (hleaves g rfl))) trivial
  | updateMemberRank player guid demote => exact iff_of_true h.handleUpdateMemberRank trivial
  | setMemberRank player targetGuid rank => exact h.handleSetMemberRank_iff
  | setNewGuildMaster player name isSelfPromote inactiveDays =>
    exact h.handleSetNewGuildMaster_iff
  | addNewRank player name => exact iff_of_true (hkeeps h.handleAddNewRank) trivial
  | removeRank player rankId => exact hsome.trans h.handleRemoveRank_iff

/-- All guilds of a run are in order exactly when all its requests fit. -/
theorem valid_iff_fits {g : Guild} (h : g.Valid) {requests : List GuildRequest}
    (hleaves : Admits handleRequest (fun s request => request.Leaves s) (some g) requests) :
    (∀ before, before <+: requests → ValidState (run handleRequest (some g) before)) ↔
      Admits handleRequest (fun s request => ∃ t, s = some t ∧ request.Fits t) (some g) requests := by
  apply run_prefixes_iff ValidState ⟨g, rfl, h⟩ _ hleaves
  rintro _ request ⟨t, rfl, ht⟩ hleave
  rw [show handleRequest (some t) request = t.handle request from rfl,
    validState_handle_iff ht hleave]
  simp

/-- Three ranks, the leader, and a member of the last rank. -/
def smallGuild : Guild where
  id := 1
  ranks := [⟨0, "Guild Master", GR_RIGHT_ALL, 0, []⟩, ⟨1, "Officer", GR_RIGHT_ALL, 0, []⟩,
    ⟨2, "Initiate", GR_RIGHT_EMPTY, 0, []⟩]
  members := [{ guid := 10, name := "Anna", rankId := 0 }, { guid := 11, name := "Bert", rankId := 2 }]
  leaderGuid := 10
  guildIds := fun _ => 1

theorem valid_smallGuild : smallGuild.Valid :=
  ⟨by decide, rfl, by decide, by decide, by decide, by decide, by decide, by decide, by decide⟩

theorem valid_iff_fits_small :
    (∀ before, before <+: [GuildRequest.updateMemberRank 10 11 false] →
        ValidState (run handleRequest (some smallGuild) before)) ↔
      Admits handleRequest (fun s request => ∃ t, s = some t ∧ request.Fits t) (some smallGuild)
        [GuildRequest.updateMemberRank 10 11 false] :=
  valid_iff_fits valid_smallGuild ⟨trivial, trivial⟩

theorem valid_fails_small :
    ¬∀ (g : Guild) (requests : List GuildRequest), g.Valid →
      Admits handleRequest (fun s request => request.Leaves s) (some g) requests →
      ∀ before, before <+: requests → ValidState (run handleRequest (some g) before) := by
  intro hall
  obtain ⟨t, hrun, hvalid⟩ := hall smallGuild [.removeRank 10 2] valid_smallGuild ⟨trivial, trivial⟩ _
    (prefix_refl _)
  cases hrun
  exact absurd (hvalid.memberRank { guid := 11, name := "Bert", rankId := 2 } (by decide)) (by decide)

end TrinityCore.Guilds
