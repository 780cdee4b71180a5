import TrinityCore.Battlegrounds.BattlegroundQueue

/-!
# The index of queued groups

Every group that is not deleted stands once in one list, on the side of its team, and has just the
players that point to it. Each routine of the queue keeps that.
-/

namespace TrinityCore.Battlegrounds

open Function Placement

@[simp] theorem team_bgQueuePremade (team : TeamId) : (bgQueuePremade team).team = team := by
  revert team
  decide

@[simp] theorem team_bgQueueNormal (team : TeamId) : (bgQueueNormal team).team = team := by
  revert team
  decide

@[simp] theorem id_teamOf (team : TeamId) : (teamOf team).id = team := by
  revert team
  decide

theorem teamOf_id (team : Team) : teamOf team.id = team := by
  cases team with
  | alliance => rfl
  | horde => rfl

theorem otherTeam_ne (team : TeamId) : otherTeam team ≠ team := by
  revert team
  decide

theorem eq_otherTeam {team team' : TeamId} (h : team' ≠ team) : team' = otherTeam team := by
  revert team team'
  decide

theorem bgQueueNormal_ne {team team' : TeamId} (h : team ≠ team') :
    bgQueueNormal team ≠ bgQueueNormal team' :=
  fun heq => h (by rw [← team_bgQueueNormal team, heq, team_bgQueueNormal])

theorem bgQueuePremade_ne {team team' : TeamId} (h : team ≠ team') :
    bgQueuePremade team ≠ bgQueuePremade team' :=
  fun heq => h (by rw [← team_bgQueuePremade team, heq, team_bgQueuePremade])

theorem normal_ne_premade (team : TeamId) : bgQueueNormal team ≠ bgQueuePremade team := by
  revert team
  decide

/-- A list of a side is the premade or the normal one. -/
theorem eq_premade_or_normal (index : GroupType) :
    index = bgQueuePremade index.team ∨ index = bgQueueNormal index.team := by
  revert index
  decide

namespace BattlegroundQueue

variable {q q' : BattlegroundQueue} {group : GroupId} {info : GroupQueueInfo} {guid : ObjectGuid}
  {k : BracketId × GroupType}

structure Consistent (q : BattlegroundQueue) : Prop where
  apart : Apart q.queuedGroups
  side : ∀ {k group}, group ∈ q.queuedGroups k →
    ∃ info, q.groups group = some info ∧ info.team.id = k.2.team
  placed : ∀ {group info}, q.groups group = some info → ∃ k, group ∈ q.queuedGroups k
  pointed : ∀ {group info}, q.groups group = some info →
    ∀ guid, guid ∈ info.players ↔ q.queuedPlayers guid = some group
  alive : ∀ {guid group}, q.queuedPlayers guid = some group → ∃ info, q.groups group = some info
  fresh : ∀ {group info}, q.groups group = some info → group < q.nextGroup

theorem consistent_empty : Consistent {} :=
  ⟨apart_nil, nofun, nofun, nofun, nofun, nofun⟩

@[simp] theorem ginfo_of_groups (h : q.groups group = some info) : q.ginfo group = info := by
  unfold ginfo
  rw [h]
  rfl

section

variable (h : Consistent q)
include h

theorem Consistent.setPool (team : TeamId) (pool : SelectionPool) :
    Consistent (q.setPool team pool) :=
  ⟨h.apart, h.side, h.placed, h.pointed, h.alive, h.fresh⟩

theorem Consistent.initPool (team : TeamId) : Consistent (q.initPool team) :=
  h.setPool team {}

theorem Consistent.initPools : Consistent q.initPools :=
  (h.initPool 0).initPool 1

/-- One group moves to a list, and takes its side, with the players that it has. -/
theorem Consistent.relocate {f : GroupQueueInfo → GroupQueueInfo}
    {k' : BracketId × GroupType} (hg : group ∈ q.queuedGroups k)
    (hmoved : Relocates q.queuedGroups q'.queuedGroups group k')
    (hgroups : q'.groups = (q.modifyGroup group f).groups)
    (hqueued : q'.queuedPlayers = q.queuedPlayers) (hnext : q'.nextGroup = q.nextGroup)
    (hkeep : ∀ info, (f info).players = info.players)
    (hside : (f (q.ginfo group)).team.id = k'.2.team) : Consistent q' := by
  obtain ⟨own, hown, -⟩ := h.side hg
  rw [ginfo_of_groups hown] at hside
  have hself : q'.groups group = some (f own) := by
    rw [hgroups]
    unfold modifyGroup
    dsimp only
    rw [update_self, hown]
    rfl
  have hother : ∀ {other}, other ≠ group → q'.groups other = q.groups other := by
    intro other hne
    rw [hgroups]
    exact update_of_ne hne _ _
  -- What holds of the players of a group holds of those of the group it was before.
  have hbefore : ∀ {other info}, q'.groups other = some info →
      ∃ old, q.groups other = some old ∧ info.players = old.players := by
    intro other info hinfo
    by_cases hne : other = group
    · rw [hne, hself] at hinfo
      cases hinfo
      exact ⟨own, hne ▸ hown, hkeep own⟩
    · exact ⟨info, (hother hne).symm.trans hinfo, rfl⟩
  refine ⟨hmoved.apart, ?_, ?_, ?_, ?_, ?_⟩
  · intro i other hmem
    rw [hmoved.mem] at hmem
    obtain ⟨rfl, rfl⟩ | ⟨hne, hmem⟩ := hmem
    · exact ⟨f own, hself, hside⟩
    · rw [hother hne]
      exact h.side hmem
  · intro other info hinfo
    by_cases hne : other = group
    · exact ⟨k', hmoved.mem.mpr (Or.inl ⟨hne, rfl⟩)⟩
    · rw [hother hne] at hinfo
      obtain ⟨i, hmem⟩ := h.placed hinfo
      exact ⟨i, hmoved.mem.mpr (Or.inr ⟨hne, hmem⟩)⟩
  · intro other info hinfo guid
    obtain ⟨old, hold, hplayers⟩ := hbefore hinfo
    rw [hplayers, hqueued]
    exact h.pointed hold guid
  · intro guid other hqueue
    rw [hqueued] at hqueue
    by_cases hne : other = group
    · exact ⟨f own, hne ▸ hself⟩
    · rw [hother hne]
      exact h.alive hqueue
  · intro other info hinfo
    obtain ⟨old, hold, -⟩ := hbefore hinfo
    rw [hnext]
    exact h.fresh hold

/-- A group changes and keeps its team and its players. -/
theorem Consistent.modifyGroup {f : GroupQueueInfo → GroupQueueInfo}
    (hg : group ∈ q.queuedGroups k) (hkeep : ∀ info, (f info).players = info.players)
    (hteam : (f (q.ginfo group)).team = (q.ginfo group).team) :
    Consistent (q.modifyGroup group f) := by
  have hself : Relocates q.queuedGroups (q.modifyGroup group f).queuedGroups group k :=
    h.apart.relocates_self hg
  apply h.relocate hg hself rfl rfl rfl hkeep
  obtain ⟨info, hinfo, hside⟩ := h.side hg
  rw [hteam, ginfo_of_groups hinfo]
  exact hside

end

@[simp] theorem players_invite (info : GroupQueueInfo) (instanceId : UInt32) (side : Option Team)
    (gameTime : UInt32) : (invite info instanceId side gameTime).players = info.players := by
  unfold invite
  dsimp only
  split
  · rfl
  · rfl

@[simp] theorem team_invite (info : GroupQueueInfo) (instanceId : UInt32) (side : Option Team)
    (gameTime : UInt32) : (invite info instanceId side gameTime).team = side.getD info.team := by
  unfold invite
  dsimp only
  split
  · rfl
  · rfl

/-- An invitation to the side that the group is on. -/
theorem Consistent.inviteGroupToBG (h : Consistent q) (hg : group ∈ q.queuedGroups k)
    (instanceId gameTime : UInt32) :
    Consistent (q.inviteGroupToBG group instanceId (some (q.ginfo group).team) gameTime) :=
  h.modifyGroup hg (fun _ => players_invite _ _ _ _) (team_invite _ _ _ _)

/-! ### Joining and leaving -/

theorem mem_insertPlayer {players : List ObjectGuid} {a : ObjectGuid} :
    a ∈ insertPlayer players guid ↔ a = guid ∨ a ∈ players := by
  unfold insertPlayer
  split
  · grind
  · rw [List.mem_orderedInsert]

theorem mem_foldl_insertPlayer {members players : List ObjectGuid} {a : ObjectGuid} :
    a ∈ members.foldl insertPlayer players ↔ a ∈ members ∨ a ∈ players := by
  induction members generalizing players with
  | nil => simp
  | cons guid members ih =>
    rw [List.foldl_cons, ih, mem_insertPlayer, List.mem_cons]
    grind

theorem team_index (join : Join) : join.index.team = join.team.id := by
  unfold Join.index
  split
  · exact team_bgQueueNormal _
  · exact team_bgQueuePremade _

/-- Players that were not queued join. -/
theorem Consistent.addGroup (h : Consistent q) {join : Join}
    (hnew : ∀ guid ∈ join.players, q.queuedPlayers guid = none) : Consistent (q.addGroup join) := by
  have hunused : q.groups q.nextGroup = none := by
    cases hinfo : q.groups q.nextGroup with
    | none => rfl
    | some info => exact absurd (h.fresh hinfo) (Nat.lt_irrefl _)
  have hunplaced : ∀ i, q.nextGroup ∉ q.queuedGroups i := by
    intro i hmem
    obtain ⟨info, hinfo, -⟩ := h.side hmem
    rw [hunused] at hinfo
    cases hinfo
  have hother : ∀ {group info}, q.groups group = some info → group ≠ q.nextGroup :=
    fun hinfo => Nat.ne_of_lt (h.fresh hinfo)
  refine ⟨h.apart.pushBack hunplaced _, ?_, ?_, ?_, ?_, ?_⟩
  · intro i group hmem
    unfold BattlegroundQueue.addGroup at hmem ⊢
    dsimp only at hmem ⊢
    rw [mem_pushBack] at hmem
    obtain ⟨rfl, rfl⟩ | hmem := hmem
    · refine ⟨_, update_self _ _ _, ?_⟩
      exact (team_index join).symm
    · obtain ⟨info, hinfo, hside⟩ := h.side hmem
      rw [update_of_ne (hother hinfo)]
      exact ⟨info, hinfo, hside⟩
  · intro group info hinfo
    unfold BattlegroundQueue.addGroup at hinfo ⊢
    dsimp only at hinfo ⊢
    by_cases hne : group = q.nextGroup
    · exact ⟨_, mem_pushBack.mpr (Or.inl ⟨hne, rfl⟩)⟩
    · rw [update_of_ne hne] at hinfo
      obtain ⟨i, hmem⟩ := h.placed hinfo
      exact ⟨i, mem_pushBack.mpr (Or.inr hmem)⟩
  · intro group info hinfo guid
    unfold BattlegroundQueue.addGroup at hinfo ⊢
    dsimp only at hinfo ⊢
    by_cases hne : group = q.nextGroup
    · rw [hne, update_self] at hinfo
      cases hinfo
      rw [mem_foldl_insertPlayer, hne]
      split
      · next hmem => simp [hmem]
      · next hmem =>
        have hnot : q.queuedPlayers guid ≠ some q.nextGroup := by
          intro hqueued
          obtain ⟨info, hinfo⟩ := h.alive hqueued
          exact hother hinfo rfl
        simp [hmem, hnot]
    · rw [update_of_ne hne] at hinfo
      have hpointed := h.pointed hinfo guid
      split
      · next hmem =>
        rw [hnew guid hmem] at hpointed
        rw [hpointed]
        simp [Ne.symm hne]
      · exact hpointed
  · intro guid group hqueued
    unfold BattlegroundQueue.addGroup at hqueued ⊢
    dsimp only at hqueued ⊢
    split at hqueued
    · cases hqueued
      exact ⟨_, update_self _ _ _⟩
    · obtain ⟨info, hinfo⟩ := h.alive hqueued
      rw [update_of_ne (hother hinfo)]
      exact ⟨info, hinfo⟩
  · intro group info hinfo
    unfold BattlegroundQueue.addGroup at hinfo ⊢
    dsimp only at hinfo ⊢
    by_cases hne : group = q.nextGroup
    · rw [hne]
      exact Nat.lt_succ_self _
    · rw [update_of_ne hne] at hinfo
      exact Nat.lt_succ_of_lt (h.fresh hinfo)

theorem modifyGroup_ne {f : GroupQueueInfo → GroupQueueInfo} {other : GroupId}
    (hne : other ≠ group) : (q.modifyGroup group f).groups other = q.groups other :=
  update_of_ne hne _ _

theorem modifyGroup_self {f : GroupQueueInfo → GroupQueueInfo} :
    (q.modifyGroup group f).groups group = (q.groups group).map f :=
  update_self _ _ _

/-- A player leaves the group that it points to. -/
theorem Consistent.leaveGroup (h : Consistent q) (hguid : q.queuedPlayers guid = some group) :
    Consistent (q.leaveGroup guid group) := by
  obtain ⟨own, hown⟩ := h.alive hguid
  have hself : (q.leaveGroup guid group).groups group =
      some { own with players := own.players.filter (· ≠ guid) } := by
    refine modifyGroup_self.trans ?_
    rw [hown]
    rfl
  have hother : ∀ {other}, other ≠ group →
      (q.leaveGroup guid group).groups other = q.groups other := fun hne => modifyGroup_ne hne
  refine ⟨h.apart, ?_, ?_, ?_, ?_, ?_⟩
  · intro i other hmem
    obtain ⟨info, hinfo, hside⟩ := h.side hmem
    by_cases hne : other = group
    · rw [hne, hown] at hinfo
      cases hinfo
      rw [hne]
      exact ⟨_, hself, hside⟩
    · rw [hother hne]
      exact ⟨info, hinfo, hside⟩
  · intro other info hinfo
    by_cases hne : other = group
    · rw [hne]
      exact h.placed hown
    · rw [hother hne] at hinfo
      exact h.placed hinfo
  · intro other info hinfo guid'
    unfold BattlegroundQueue.leaveGroup
    dsimp only
    by_cases hne : other = group
    · rw [hne, hself] at hinfo
      cases hinfo
      have hpointed := h.pointed hown guid'
      by_cases hguid' : guid' = guid
      · simp [hguid']
      · rw [update_of_ne hguid', hne, ← hpointed]
        simp [hguid']
    · rw [hother hne] at hinfo
      have hpointed := h.pointed hinfo guid'
      by_cases hguid' : guid' = guid
      · rw [hguid', hguid, Option.some_inj] at hpointed
        rw [hguid', hpointed, update_self]
        exact ⟨fun heq => absurd heq.symm hne, nofun⟩
      · rw [update_of_ne hguid']
        exact hpointed
  · intro guid' other hqueued
    unfold BattlegroundQueue.leaveGroup at hqueued
    dsimp only at hqueued
    by_cases hguid' : guid' = guid
    · rw [hguid', update_self] at hqueued
      cases hqueued
    · rw [update_of_ne hguid'] at hqueued
      by_cases hne : other = group
      · rw [hne]
        exact ⟨_, hself⟩
      · rw [hother hne]
        exact h.alive hqueued
  · intro other info hinfo
    by_cases hne : other = group
    · rw [hne]
      exact h.fresh hown
    · rw [hother hne] at hinfo
      exact h.fresh hinfo

/-- A group without players is erased from its list. -/
theorem Consistent.deleteGroup (h : Consistent q) (hg : group ∈ q.queuedGroups k)
    (hempty : (q.ginfo group).players = []) : Consistent (q.deleteGroup k group) := by
  obtain ⟨own, hown, -⟩ := h.side hg
  rw [ginfo_of_groups hown] at hempty
  have hnone : ∀ guid, q.queuedPlayers guid ≠ some group := by
    intro guid hqueued
    have hmem := (h.pointed hown guid).mpr hqueued
    rw [hempty] at hmem
    cases hmem
  have hinfo_ne : ∀ {other info}, (q.deleteGroup k group).groups other = some info →
      other ≠ group ∧ q.groups other = some info := by
    intro other info hinfo
    unfold BattlegroundQueue.deleteGroup at hinfo
    dsimp only at hinfo
    by_cases hne : other = group
    · rw [hne, update_self] at hinfo
      cases hinfo
    · rw [update_of_ne hne] at hinfo
      exact ⟨hne, hinfo⟩
  refine ⟨h.apart.erase hg, ?_, ?_, ?_, ?_, ?_⟩
  · intro i other hmem
    obtain ⟨hne, hmem⟩ := (h.apart.mem_erase hg).mp hmem
    obtain ⟨info, hinfo, hside⟩ := h.side hmem
    exact ⟨info, (update_of_ne hne _ _).trans hinfo, hside⟩
  · intro other info hinfo
    obtain ⟨hne, hinfo⟩ := hinfo_ne hinfo
    obtain ⟨i, hmem⟩ := h.placed hinfo
    exact ⟨i, (h.apart.mem_erase hg).mpr ⟨hne, hmem⟩⟩
  · intro other info hinfo
    exact h.pointed (hinfo_ne hinfo).2
  · intro guid other hqueued
    obtain ⟨info, hinfo⟩ := h.alive hqueued
    have hne : other ≠ group := fun heq => hnone guid (heq ▸ hqueued)
    exact ⟨info, (update_of_ne hne _ _).trans hinfo⟩
  · intro other info hinfo
    exact h.fresh (hinfo_ne hinfo).2

/-- What the search of `RemovePlayer` finds. -/
theorem mem_of_findInBracket {team : TeamId} {bracketId : BracketId}
    (h : q.findInBracket group team bracketId = some k) : group ∈ q.queuedGroups k := by
  unfold findInBracket at h
  split at h
  · next hmem =>
    cases h
    exact hmem
  · split at h
    · next hmem =>
      cases h
      exact hmem
    · cases h

theorem mem_of_findGroupInfo (h : q.findGroupInfo group = some k) : group ∈ q.queuedGroups k := by
  obtain ⟨bracketId, -, hfound⟩ := List.exists_of_findSome?_eq_some h
  exact mem_of_findInBracket hfound

/-- A group that is in a list is found there. -/
theorem Consistent.findGroupInfo (h : Consistent q) (hg : group ∈ q.queuedGroups k) :
    q.findGroupInfo group = some k := by
  obtain ⟨info, hinfo, hside⟩ := h.side hg
  have hbracket : (q.findInBracket group (q.ginfo group).team.id k.1).isSome = true := by
    rw [ginfo_of_groups hinfo, hside]
    unfold findInBracket
    split
    · rfl
    · next hnormal =>
      obtain hindex | hindex := eq_premade_or_normal k.2
      · rw [← hindex, if_pos hg]
        rfl
      · exact absurd (hindex ▸ hg) hnormal
  have hsome : (q.findGroupInfo group).isSome = true :=
    List.findSome?_isSome_iff.mpr
      ⟨k.1, List.mem_reverse.mpr (List.mem_finRange k.1), hbracket⟩
  obtain ⟨k', hk'⟩ := Option.isSome_iff_exists.mp hsome
  rw [hk', h.apart.unique (mem_of_findGroupInfo hk') hg]

theorem Consistent.removePlayers (depth : Nat) (h : Consistent q) (guid : ObjectGuid) :
    Consistent (removePlayers depth q guid) := by
  induction depth generalizing q guid with
  | zero => exact h
  | succ depth ih =>
    unfold BattlegroundQueue.removePlayers
    split
    · exact h
    · next group hguid =>
      split
      · exact h
      · next k hfound =>
        have hleft := h.leaveGroup hguid
        have hmem : group ∈ (q.leaveGroup guid group).queuedGroups k :=
          @mem_of_findGroupInfo q group k hfound
        dsimp only
        split
        · next hempty => exact hleft.deleteGroup hmem hempty
        · split
          · exact ih hleft _
          · exact hleft

theorem Consistent.removePlayer (h : Consistent q) (guid : ObjectGuid) :
    Consistent (q.removePlayer guid) := by
  unfold BattlegroundQueue.removePlayer
  split
  · exact h
  · exact h.removePlayers _ guid

/-- More levels of the recursion than the group has players change nothing. -/
theorem Consistent.removePlayers_eq (h : Consistent q)
    (hguid : q.queuedPlayers guid = some group) {depth depth' : Nat}
    (hdepth : (q.ginfo group).players.length ≤ depth) (hdepth' : depth ≤ depth') :
    BattlegroundQueue.removePlayers depth' q guid =
      BattlegroundQueue.removePlayers depth q guid := by
  induction depth generalizing q guid depth' with
  | zero =>
    obtain ⟨info, hinfo⟩ := h.alive hguid
    have hmem := (h.pointed hinfo guid).mpr hguid
    rw [ginfo_of_groups hinfo] at hdepth
    exact absurd (List.length_pos_of_mem hmem) (by omega)
  | succ depth ih =>
    obtain ⟨depth', rfl⟩ : ∃ n, depth' = n + 1 := ⟨depth' - 1, by omega⟩
    obtain ⟨info, hinfo⟩ := h.alive hguid
    have hmem := (h.pointed hinfo guid).mpr hguid
    have hleft := h.leaveGroup hguid
    have hself : (q.leaveGroup guid group).groups group =
        some { info with players := info.players.filter (· ≠ guid) } := by
      refine modifyGroup_self.trans ?_
      rw [hinfo]
      rfl
    unfold BattlegroundQueue.removePlayers
    rw [hguid]
    dsimp only
    cases q.findGroupInfo group with
    | none => rfl
    | some k =>
      dsimp only
      rw [ginfo_of_groups hself]
      dsimp only
      cases hplayers : info.players.filter (· ≠ guid) with
      | nil => rfl
      | cons next rest =>
        dsimp only
        split
        · have hnext : (q.leaveGroup guid group).queuedPlayers next = some group := by
            apply (hleft.pointed hself next).mp
            dsimp only
            rw [hplayers]
            exact List.mem_cons_self
          have hlength : (info.players.filter (· ≠ guid)).length < info.players.length :=
            List.length_filter_lt_length_iff_exists.mpr ⟨guid, hmem, by simp⟩
          rw [ginfo_of_groups hinfo] at hdepth
          apply ih hleft hnext _ (by omega)
          rw [ginfo_of_groups hself]
          dsimp only
          omega
        · rfl

end BattlegroundQueue

end TrinityCore.Battlegrounds
