import TrinityCore.Guilds.GuildLeadership

/-!
# Authority in a guild

Who may remove, promote and demote whom. A rank right is tested together with a bit that all
rights share, and each of the three handlers compares the ranks in its own way, if at all.
-/

namespace TrinityCore.Guilds

open Option

namespace Guild

/-- `HandleRemoveMember`. -/
def handleRemoveMember (g : Guild) (player guid : Nat) : Guild :=
  if !g.hasRankRight player GR_RIGHT_REMOVE then g
  else
    match g.getMember guid with
    | none => g
    | some member =>
      if member.rankId = GR_GUILDMASTER then g
      else
        match g.getMember player with
        | none => g
        | some memberMe =>
          if member.rankId ≤ memberMe.rankId then g else g.deleteMember guid

end Guild

/-- What members ask for about other members. -/
inductive AuthorityRequest where
  | removeMember (guid : Nat)
  | updateMemberRank (guid : Nat) (demote : Bool)
  | setMemberRank (targetGuid rank : Nat)
  deriving DecidableEq, Repr

/-- The guild after a request of a player; none is a server that has crashed. -/
def Guild.handleAuthority (g : Guild) (player : Nat) : AuthorityRequest → Option Guild
  | .removeMember guid => some (g.handleRemoveMember player guid)
  | .updateMemberRank guid demote => g.handleUpdateMemberRank player guid demote
  | .setMemberRank targetGuid rank => g.handleSetMemberRank player targetGuid rank

/-- A right without the bit that all rights share. -/
def rightBit (right : UInt32) : UInt32 := right ^^^ GR_RIGHT_EMPTY

/-- The right that it takes to change a member's rank to another one. -/
def rankRight (before after : Nat) : UInt32 :=
  if before < after then GR_RIGHT_DEMOTE else GR_RIGHT_PROMOTE

/-- The right that it takes to make of a member what is left of him. -/
def actionRight (member : Member) : Option Member → UInt32
  | none => GR_RIGHT_REMOVE
  | some after => rankRight member.rankId after.rankId

namespace Guild

/-- The rank of a member carries a right. -/
def Carries (g : Guild) (member : Member) (right : UInt32) : Prop :=
  g.getRankRights member.rankId &&& rightBit right ≠ 0

/-- Whatever a request does to other members, the rank of the player carries the right for it, and
is above theirs before and after. -/
def Respects (g : Guild) (player : Nat) (request : AuthorityRequest) : Prop :=
  ∀ g', g.handleAuthority player request = some g' → ∀ me, g.getMember player = some me →
    ∀ member ∈ g.members, member.guid ≠ player →
      (g'.getMember member.guid).map Member.rankId ≠ some member.rankId →
        g.Carries me (actionRight member (g'.getMember member.guid)) ∧ me.rankId < member.rankId ∧
          ∀ me' after, g'.getMember player = some me' → g'.getMember member.guid = some after →
            me'.rankId < after.rankId

end Guild

/-- The requests that respect the ranks, if they are granted: of a player whose rank carries the
right and not only lacks the bit that all rights share; to remove a member who is not the leader,
unless the player succeeds him or a guild master does; to promote by one who does not have the
highest number as his rank; and to set the rank of a member below him to one below him. -/
def AuthorityRequest.Fits (g : Guild) (player : Nat) : AuthorityRequest → Prop
  | .removeMember guid => ∀ me member, g.getMember player = some me →
    g.getMember guid = some member → g.hasRankRight player GR_RIGHT_REMOVE →
      member.rankId ≠ GR_GUILDMASTER → me.rankId < member.rankId →
        g.Carries me GR_RIGHT_REMOVE ∧ (guid = g.leaderGuid → ∀ leader,
          Guild.newLeader g.members guid = some leader → leader.guid = player ∨ leader.rankId = GR_GUILDMASTER)
  | .updateMemberRank guid demote => ∀ me member, g.getMember player = some me →
    g.getMember guid = some member → guid ≠ player →
      g.hasRankRight player (if demote then GR_RIGHT_DEMOTE else GR_RIGHT_PROMOTE) →
        (if demote then me.rankId < member.rankId ∧ member.rankId < g.getLowestRankId
          else (me.rankId + 1) % 256 < member.rankId) →
        g.Carries me (if demote then GR_RIGHT_DEMOTE else GR_RIGHT_PROMOTE) ∧
          (demote = false → me.rankId ≠ 255)
  | .setMemberRank targetGuid rank => ∀ me member, g.getMember player = some me →
    g.getMember targetGuid = some member → targetGuid ≠ player →
      g.hasRankRight player (rankRight member.rankId rank) → rank % 256 ≠ member.rankId →
        g.Carries me (rankRight member.rankId (rank % 256)) ∧ me.rankId < member.rankId ∧
          me.rankId < rank % 256

variable {request : AuthorityRequest}

namespace Guild

variable {g : Guild} {player guid : Nat}

/-! ### What a handler does, when it does anything -/

/-- One member's rank is changed with authority exactly if the player outranks him, and the rank
that he gets. -/
theorem respects_changeRank_iff (hkeys : (g.members.map Member.guid).Nodup) {me member : Member}
    {newRank : Nat} (hme : g.getMember player = some me) (hmember : g.getMember guid = some member)
    (hother : guid ≠ player)
    (hhandle : g.handleAuthority player request = some (g.changeRank guid newRank)) :
    g.Respects player request ↔ (newRank % 256 ≠ member.rankId →
      g.Carries me (rankRight member.rankId (newRank % 256)) ∧ me.rankId < member.rankId ∧
        me.rankId < newRank % 256) := by
  have hguid := getMember_guid hmember
  have hget := @getMember_modifyMember g guid
    (fun member => { member with rankId := newRank % 256 }) fun _ => rfl
  have hplayer : (g.changeRank guid newRank).getMember player = some me := by
    unfold changeRank
    rw [hget, if_neg hother.symm, hme]
  have hchanged : (g.changeRank guid newRank).getMember guid =
      some { member with rankId := newRank % 256 } := by
    unfold changeRank
    rw [hget, if_pos rfl, hmember]
    rfl
  unfold Respects
  rw [hhandle]
  constructor
  · intro hrespects hne
    obtain ⟨hright, hbefore, hafter⟩ := hrespects _ rfl me hme member (getMember_mem hmember)
      (hguid ▸ hother) (by rw [hguid, hchanged]; simpa using hne)
    rw [hguid, hchanged] at hright hafter
    exact ⟨hright, hbefore, hafter me _ hplayer rfl⟩
  · intro hfits g' hg' me' hme' other hin hne hdiffers
    obtain rfl := some.inj hg'
    obtain rfl := some.inj (hme.symm.trans hme')
    have hfound := (getMember_eq_some hkeys).mpr ⟨hin, rfl⟩
    by_cases hsame : other.guid = guid
    · rw [hsame] at hfound hdiffers ⊢
      obtain rfl := some.inj (hmember.symm.trans hfound)
      rw [hchanged] at hdiffers ⊢
      obtain ⟨hright, hbefore, hafter⟩ := hfits (by simpa using hdiffers)
      refine ⟨hright, hbefore, fun me' after hme' hafter' => ?_⟩
      rw [hplayer] at hme'
      cases hme'
      cases hafter'
      exact hafter
    · unfold changeRank at hdiffers
      rw [hget, if_neg hsame, hfound] at hdiffers
      exact absurd rfl hdiffers

/-- A request that changes nothing respects the ranks. -/
theorem respects_of_unchanged (hkeys : (g.members.map Member.guid).Nodup)
    (hhandle : g.handleAuthority player request = some g) : g.Respects player request := by
  intro g' hg' me _ member hmember _ hdiffers
  obtain rfl := some.inj (hhandle.symm.trans hg')
  rw [(getMember_eq_some hkeys).mpr ⟨hmember, rfl⟩] at hdiffers
  exact absurd rfl hdiffers

/-- Who is left when a member is erased. -/
theorem getMember_eraseMember (other : Nat) : (g.eraseMember guid).getMember other =
    if other = guid then none else g.getMember other := by
  unfold eraseMember getMember
  rw [List.find?_filter]
  split
  · next hsame =>
    rw [List.find?_eq_none]
    intro member _
    simp [hsame]
  · next hne =>
    congr 1
    funext member
    by_cases hguid : member.guid = other
    · simp [hguid, hne]
    · simp [hguid]

theorem getMember_deleteMember (hne : guid ≠ g.leaderGuid) (other : Nat) :
    (g.deleteMember guid).getMember other = if other = guid then none else g.getMember other := by
  unfold deleteMember
  rw [if_neg hne.symm, getMember_eraseMember]

theorem getMember_deleteMember_leader {leader : Member}
    (hleader : newLeader g.members g.leaderGuid = some leader) (other : Nat) :
    (g.deleteMember g.leaderGuid).getMember other =
      if other = g.leaderGuid then none
      else if other = leader.guid then
        (g.getMember other).map fun member => { member with rankId := GR_GUILDMASTER }
      else g.getMember other := by
  unfold deleteMember
  rw [if_pos rfl, hleader]
  dsimp only
  rw [getMember_eraseMember]
  congr 1
  exact @getMember_modifyMember { g with leaderGuid := leader.guid } leader.guid
    (fun member => { member with rankId := GR_GUILDMASTER }) (fun _ => rfl) other

/-! ### The three handlers -/

section

variable (hkeys : (g.members.map Member.guid).Nodup)
include hkeys

/-- Where a removal goes through, it respects the ranks exactly if the right is carried and the
next leader is no third member who rises to it. -/
theorem respects_deleteMember_iff {me member : Member}
    (hme : g.getMember player = some me) (hmember : g.getMember guid = some member)
    (hbelow : me.rankId < member.rankId)
    (hhandle : g.handleAuthority player (.removeMember guid) = some (g.deleteMember guid)) :
    g.Respects player (.removeMember guid) ↔ g.Carries me GR_RIGHT_REMOVE ∧
      (guid = g.leaderGuid → ∀ leader, newLeader g.members guid = some leader →
        leader.guid = player ∨ leader.rankId = GR_GUILDMASTER) := by
  have hguid := getMember_guid hmember
  have hother : player ≠ guid := by
    rintro rfl
    obtain rfl := some.inj (hme.symm.trans hmember)
    exact Nat.lt_irrefl _ hbelow
  have hremoved : (g.deleteMember guid).getMember guid = none := by
    by_cases hleader : guid = g.leaderGuid
    · subst hleader
      cases hnew : newLeader g.members g.leaderGuid with
      | none =>
        have hall := newLeader_eq_none hnew me (getMember_mem hme)
        exact absurd ((getMember_guid hme).symm.trans hall) hother
      | some leader => rw [getMember_deleteMember_leader hnew, if_pos rfl]
    · rw [getMember_deleteMember hleader, if_pos rfl]
  unfold Respects
  rw [hhandle]
  constructor
  · intro hrespects
    constructor
    · obtain ⟨hright, -⟩ := hrespects _ rfl me hme member (getMember_mem hmember)
        (hguid ▸ hother.symm) (by rw [hguid, hremoved]; exact nofun)
      rwa [hguid, hremoved] at hright
    · rintro rfl leader hnew
      obtain ⟨hin, hstays⟩ := newLeader_eq_some hnew
      have hfound := (getMember_eq_some hkeys).mpr ⟨hin, rfl⟩
      have hrisen : (g.deleteMember g.leaderGuid).getMember leader.guid =
          some { leader with rankId := GR_GUILDMASTER } := by
        rw [getMember_deleteMember_leader hnew, if_neg hstays, if_pos rfl, hfound]
        rfl
      by_contra hnot
      rw [not_or] at hnot
      have hplayer : (g.deleteMember g.leaderGuid).getMember player = some me := by
        rw [getMember_deleteMember_leader hnew, if_neg hother, if_neg (Ne.symm hnot.1), hme]
      obtain ⟨-, -, hafter⟩ := hrespects _ rfl me hme leader hin hnot.1 (by
        rw [hrisen]
        simpa using Ne.symm hnot.2)
      exact Nat.not_lt_zero _ (hafter me _ hplayer hrisen)
  · rintro ⟨hright, hleads⟩ g' hg' me' hme' other hin hne hdiffers
    obtain rfl := some.inj hg'
    obtain rfl := some.inj (hme.symm.trans hme')
    have hfound := (getMember_eq_some hkeys).mpr ⟨hin, rfl⟩
    by_cases hsame : other.guid = guid
    · rw [hsame] at hfound
      obtain rfl := some.inj (hmember.symm.trans hfound)
      rw [hguid, hremoved]
      exact ⟨hright, hbelow, nofun⟩
    · exfalso
      apply hdiffers
      by_cases hleader : guid = g.leaderGuid
      · subst hleader
        cases hnew : newLeader g.members g.leaderGuid with
        | none => exact absurd (newLeader_eq_none hnew other hin) hsame
        | some leader =>
          rw [getMember_deleteMember_leader hnew, if_neg hsame]
          split
          · next hlead =>
            obtain rfl := List.inj_on_of_nodup_map hkeys hin (newLeader_eq_some hnew).1 hlead
            rw [hfound]
            rcases hleads rfl other hnew with hplayer | hmaster
            · exact absurd hplayer hne
            · exact congrArg some hmaster.symm
          · rw [hfound]
            rfl
      · rw [getMember_deleteMember hleader, if_neg hsame, hfound]
        rfl

/-- A request that is refused respects the ranks, and fits if it is never granted. -/
theorem respects_iff_of_refused
    (hhandle : g.handleAuthority player request = some g) (hfits : request.Fits g player) :
    g.Respects player request ↔ request.Fits g player :=
  iff_of_true (respects_of_unchanged hkeys hhandle) hfits

theorem respects_removeMember_iff :
    g.Respects player (.removeMember guid) ↔
      (AuthorityRequest.removeMember guid).Fits g player := by
  cases hright : g.hasRankRight player GR_RIGHT_REMOVE with
  | false =>
    apply respects_iff_of_refused hkeys
    · simp [handleAuthority, handleRemoveMember, hright]
    · intro me member _ _ hgranted
      rw [hright] at hgranted
      contradiction
  | true =>
    obtain ⟨me, hme⟩ := hasRankRight_getMember hright
    cases hmember : g.getMember guid with
    | none =>
      apply respects_iff_of_refused hkeys
      · simp [handleAuthority, handleRemoveMember, hright, hmember]
      · intro me' member _ hmember'
        rw [hmember] at hmember'
        contradiction
    | some member =>
      by_cases hgranted : member.rankId ≠ GR_GUILDMASTER ∧ me.rankId < member.rankId
      · have hhandle : g.handleRemoveMember player guid = g.deleteMember guid := by
          simp [handleRemoveMember, hright, hme, hmember, hgranted.1, Nat.not_le.mpr hgranted.2]
        rw [respects_deleteMember_iff hkeys hme hmember hgranted.2 (congrArg some hhandle)]
        constructor
        · intro hboth me' member' hme' hmember' _ _ _
          cases hme.symm.trans hme'
          exact hboth
        · intro hfits
          exact hfits me member hme hmember hright hgranted.1 hgranted.2
      · apply respects_iff_of_refused hkeys
        · simp only [handleAuthority, handleRemoveMember, hright, hmember, hme, Bool.not_true,
            Bool.false_eq_true, if_false]
          split
          · rfl
          · next hnot =>
            rw [if_pos]
            by_contra hlt
            exact hgranted ⟨hnot, Nat.lt_of_not_le hlt⟩
        · intro me' member' hme' hmember' _ hnot hlt
          cases hme.symm.trans hme'
          cases hmember.symm.trans hmember'
          exact absurd ⟨hnot, hlt⟩ hgranted

end

/-- A promotion or demotion by one is granted to those who have the right, of members far enough
below them. -/
theorem handleUpdateMemberRank_eq {me member : Member} {demote : Bool}
    (hright : g.hasRankRight player (if demote then GR_RIGHT_DEMOTE else GR_RIGHT_PROMOTE) = true)
    (hme : g.getMember player = some me) (hmember : g.getMember guid = some member)
    (hself : guid ≠ player) : g.handleUpdateMemberRank player guid demote =
      if if demote then me.rankId < member.rankId ∧ member.rankId < g.getLowestRankId
        else (me.rankId + 1) % 256 < member.rankId then
        some (g.changeRank guid (if demote then member.rankId + 1 else member.rankId - 1))
      else some g := by
  have hother : member.guid ≠ player := getMember_guid hmember ▸ hself
  unfold handleUpdateMemberRank
  rw [hright, hmember, hme]
  simp only [Bool.not_true, Bool.false_eq_true, if_false, if_neg hother]
  cases demote with
  | true =>
    by_cases hbelow : me.rankId < member.rankId ∧ member.rankId < g.getLowestRankId
    · simp [hbelow, Nat.not_le.mpr hbelow.1, Nat.not_le.mpr hbelow.2]
    · simp only [if_true, if_neg hbelow]
      rw [not_and_or, Nat.not_lt, Nat.not_lt] at hbelow
      simp [hbelow]
  | false =>
    by_cases hbelow : (me.rankId + 1) % 256 < member.rankId
    · simp [hbelow, Nat.not_le.mpr hbelow]
    · simp [hbelow, Nat.not_lt.mp hbelow]

theorem respects_updateMemberRank_iff (hkeys : (g.members.map Member.guid).Nodup)
    (hbytes : ∀ member ∈ g.members, member.rankId < 256) {demote : Bool} :
    g.Respects player (.updateMemberRank guid demote) ↔
      (AuthorityRequest.updateMemberRank guid demote).Fits g player := by
  cases hright : g.hasRankRight player (if demote then GR_RIGHT_DEMOTE else GR_RIGHT_PROMOTE) with
  | false =>
    apply respects_iff_of_refused hkeys
    · simp [handleAuthority, handleUpdateMemberRank, hright]
    · intro me member _ _ _ hgranted
      rw [hright] at hgranted
      contradiction
  | true =>
    obtain ⟨me, hme⟩ := hasRankRight_getMember hright
    cases hmember : g.getMember guid with
    | none =>
      apply respects_iff_of_refused hkeys
      · simp [handleAuthority, handleUpdateMemberRank, hright, hmember]
      · intro me' member _ hmember'
        rw [hmember] at hmember'
        contradiction
    | some member =>
      by_cases hself : guid = player
      · apply respects_iff_of_refused hkeys
        · subst hself
          simp [handleAuthority, handleUpdateMemberRank, hright, hmember, getMember_guid hmember]
        · intro me' member' _ _ hother
          exact absurd hself hother
      · have heq := handleUpdateMemberRank_eq hright hme hmember hself
        by_cases hgranted : if demote then
            me.rankId < member.rankId ∧ member.rankId < g.getLowestRankId
          else (me.rankId + 1) % 256 < member.rankId
        · rw [if_pos hgranted] at heq
          have hmeByte := hbytes me (getMember_mem hme)
          have hmemberByte := hbytes member (getMember_mem hmember)
          have hlowest : g.getLowestRankId < 256 := Nat.mod_lt _ (by decide)
          -- The new rank is next to the old one; a promotion can pass a player whose rank wraps.
          have hrank : rankRight member.rankId
              ((if demote then member.rankId + 1 else member.rankId - 1) % 256) =
                (if demote then GR_RIGHT_DEMOTE else GR_RIGHT_PROMOTE) ∧
              (if demote then member.rankId + 1 else member.rankId - 1) % 256 ≠ member.rankId ∧
              ((me.rankId < member.rankId ∧
                me.rankId < (if demote then member.rankId + 1 else member.rankId - 1) % 256) ↔
                (demote = false → me.rankId ≠ 255)) := by
            unfold rankRight
            cases demote with
            | true =>
              simp only [if_true] at hgranted ⊢
              refine ⟨if_pos (by omega), by omega, iff_of_true (by omega) nofun⟩
            | false =>
              simp only [Bool.false_eq_true, if_false] at hgranted ⊢
              refine ⟨if_neg (by omega), by omega, ?_⟩
              simp only [forall_const]
              omega
          have hhandle : g.handleAuthority player (.updateMemberRank guid demote) = _ := heq
          rw [respects_changeRank_iff hkeys hme hmember hself hhandle, hrank.1, hrank.2.2]
          constructor
          · intro hboth me' member' hme' hmember' _ _ _
            cases hme.symm.trans hme'
            exact hboth hrank.2.1
          · intro hfits _
            exact hfits me member hme hmember hself hright hgranted
        · apply respects_iff_of_refused hkeys
          · rw [if_neg hgranted] at heq
            exact heq
          · intro me' member' hme' hmember' _ _ hgrant
            cases hme.symm.trans hme'
            cases hmember.symm.trans hmember'
            exact absurd hgrant hgranted

theorem respects_setMemberRank_iff (hkeys : (g.members.map Member.guid).Nodup) {rank : Nat} :
    g.Respects player (.setMemberRank guid rank) ↔
      (AuthorityRequest.setMemberRank guid rank).Fits g player := by
  cases hmember : g.getMember guid with
  | none =>
    refine iff_of_true (fun g' hg' => ?_) fun me member _ hmember' => ?_
    · simp [handleAuthority, handleSetMemberRank, hmember] at hg'
    · rw [hmember] at hmember'
      contradiction
  | some member =>
    have hguid := getMember_guid hmember
    cases hright : g.hasRankRight player (rankRight member.rankId rank) with
    | false =>
      apply respects_iff_of_refused hkeys
      · unfold rankRight at hright
        simp [handleAuthority, handleSetMemberRank, hmember, hright]
      · intro me' member' _ hmember' _ hgranted
        cases hmember.symm.trans hmember'
        rw [hright] at hgranted
        contradiction
    | true =>
      obtain ⟨me, hme⟩ := hasRankRight_getMember hright
      by_cases hself : guid = player
      · apply respects_iff_of_refused hkeys
        · subst hself
          unfold rankRight at hright
          simp [handleAuthority, handleSetMemberRank, hmember, hright, hguid]
        · intro me' member' _ _ hother
          exact absurd hself hother
      · have hhandle : g.handleAuthority player (.setMemberRank guid rank) =
            some (g.changeRank guid rank) := by
          unfold rankRight at hright
          simp [handleAuthority, handleSetMemberRank, hmember, hright, hguid, hself]
        rw [respects_changeRank_iff hkeys hme hmember hself hhandle]
        constructor
        · intro hall me' member' hme' hmember' _ _ hne
          cases hme.symm.trans hme'
          cases hmember.symm.trans hmember'
          exact hall hne
        · intro hfits hne
          exact hfits me member hme hmember hself hright hne

/-- A request respects the ranks exactly when it fits. -/
theorem respects_iff_fits (hkeys : (g.members.map Member.guid).Nodup)
    (hbytes : ∀ member ∈ g.members, member.rankId < 256) (request : AuthorityRequest) :
    g.Respects player request ↔ request.Fits g player := by
  cases request with
  | removeMember guid => exact respects_removeMember_iff hkeys
  | updateMemberRank guid demote => exact respects_updateMemberRank_iff hkeys hbytes
  | setMemberRank targetGuid rank => exact respects_setMemberRank_iff hkeys

theorem respects_iff_fits_small :
    smallGuild.Respects 10 (.updateMemberRank 11 false) ↔
      (AuthorityRequest.updateMemberRank 11 false).Fits smallGuild 10 :=
  respects_iff_fits (by decide) (by decide) _

/-- An officer who may promote makes a veteran a guild master. -/
theorem not_respects_setMemberRank :
    ¬∀ (g : Guild) (player : Nat) (request : AuthorityRequest),
      (g.members.map Member.guid).Nodup → (∀ member ∈ g.members, member.rankId < 256) →
        g.Respects player request := by
  intro hall
  let g : Guild :=
    { smallGuild with
      members := [{ guid := 10, name := "Anna", rankId := 0 },
        { guid := 11, name := "Bert", rankId := 1 }, { guid := 12, name := "Cleo", rankId := 2 }] }
  have hhandle : g.handleAuthority 11 (.setMemberRank 12 0) = some (g.changeRank 12 0) := by
    have hmember : g.getMember 12 = some { guid := 12, name := "Cleo", rankId := 2 } := rfl
    have hright : g.hasRankRight 11 GR_RIGHT_PROMOTE = true := by decide
    simp [handleAuthority, handleSetMemberRank, hmember, hright]
  obtain ⟨-, -, hafter⟩ := hall g 11 (.setMemberRank 12 0) (by decide) (by decide)
    (g.changeRank 12 0) hhandle { guid := 11, name := "Bert", rankId := 1 } (by decide)
    { guid := 12, name := "Cleo", rankId := 2 } (by decide) (by decide) (by decide)
  exact absurd (hafter { guid := 11, name := "Bert", rankId := 1 }
    { guid := 12, name := "Cleo", rankId := 0 } (by decide) (by decide)) (by decide)

end Guild

end TrinityCore.Guilds
