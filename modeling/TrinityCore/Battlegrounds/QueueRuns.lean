import TrinityCore.Battlegrounds.GroupIndexMatches

/-!
# Runs of a battleground queue

Any calls of the routines of the queue, in any order, and the updates that are made of them.
-/

namespace TrinityCore.Battlegrounds.BattlegroundQueue

open List Option Placement

variable {q q' : BattlegroundQueue} {group : GroupId}

/-! ### Rated arenas -/

variable {bracketId : BracketId}

theorem relocates_moveRated (h : Consistent q) {team : TeamId}
    (hg : group ∈ q.queuedGroups (bracketId, bgQueuePremade team)) (side : TeamId) :
    Relocates q.queuedGroups (q.moveRated bracketId side group).queuedGroups group
      (bracketId, bgQueuePremade side) := by
  obtain ⟨info, hinfo, hteam⟩ := h.side hg
  rw [team_bgQueuePremade] at hteam
  unfold moveRated
  split
  · next hne =>
    have hother : team = otherTeam side := by
      apply eq_otherTeam
      rintro rfl
      rw [ginfo_of_groups hinfo, ← hteam, teamOf_id] at hne
      exact hne rfl
    rw [hother] at hg
    exact h.apart.relocates_move hg fun heq =>
      bgQueuePremade_ne (otherTeam_ne side).symm (congrArg Prod.snd heq)
  · next heq =>
    rw [Decidable.not_not, ginfo_of_groups hinfo] at heq
    rw [heq, id_teamOf] at hteam
    rw [← hteam] at hg
    exact h.apart.relocates_self hg

/-- A team is moved to its side and invited to it. -/
theorem Consistent.invite_moveRated (h : Consistent q) {team : TeamId}
    (hg : group ∈ q.queuedGroups (bracketId, bgQueuePremade team)) (side : TeamId)
    (instanceId gameTime : UInt32) :
    Consistent ((q.moveRated bracketId side group).inviteGroupToBG group instanceId
      (some (teamOf side)) gameTime) := by
  have hsame : (q.moveRated bracketId side group).groups = q.groups ∧
      (q.moveRated bracketId side group).queuedPlayers = q.queuedPlayers ∧
      (q.moveRated bracketId side group).nextGroup = q.nextGroup := by
    unfold moveRated
    split
    · exact ⟨rfl, rfl, rfl⟩
    · exact ⟨rfl, rfl, rfl⟩
  obtain ⟨hgroups, hqueued, hnext⟩ := hsame
  have hmoved : Relocates q.queuedGroups ((q.moveRated bracketId side group).inviteGroupToBG group
      instanceId (some (teamOf side)) gameTime).queuedGroups group
      (bracketId, bgQueuePremade side) := relocates_moveRated h hg side
  apply h.relocate hg hmoved _ hqueued hnext
    (fun info => players_invite info instanceId (some (teamOf side)) gameTime)
  · rw [team_invite, team_bgQueuePremade]
    exact id_teamOf side
  · unfold BattlegroundQueue.inviteGroupToBG BattlegroundQueue.modifyGroup
    dsimp only
    rw [hgroups]

theorem ginfo_inviteGroupToBG {other : GroupId} (hne : other ≠ group) (instanceId : UInt32)
    (side : Option Team) (gameTime : UInt32) :
    (q.inviteGroupToBG group instanceId side gameTime).ginfo other = q.ginfo other := by
  unfold ginfo inviteGroupToBG
  rw [modifyGroup_ne hne]

/-- The move of one team and the invitation of the other one do not meet. -/
theorem moveRated_inviteGroupToBG {other : GroupId} (hne : other ≠ group)
    (bracketId : BracketId) (team : TeamId) (instanceId : UInt32) (side : Option Team)
    (gameTime : UInt32) :
    (q.inviteGroupToBG group instanceId side gameTime).moveRated bracketId team other =
      (q.moveRated bracketId team other).inviteGroupToBG group instanceId side gameTime := by
  unfold moveRated
  rw [ginfo_inviteGroupToBG hne]
  split
  · rfl
  · rfl

/-- Two teams of any sides play. -/
theorem Consistent.startRatedMatch (h : Consistent q) {aTeam hTeam : GroupId} {aSide hSide : TeamId}
    (ha : aTeam ∈ q.queuedGroups (bracketId, bgQueuePremade aSide))
    (hh : hTeam ∈ q.queuedGroups (bracketId, bgQueuePremade hSide)) (hne : hTeam ≠ aTeam)
    (arena : Option UInt32) (gameTime : UInt32) :
    Consistent (q.startRatedMatch bracketId arena gameTime aTeam hTeam) := by
  unfold BattlegroundQueue.startRatedMatch
  cases arena with
  | none => exact h
  | some instanceId =>
    dsimp only
    have hrated : Consistent ((q.setOpponent aTeam (q.ginfo hTeam)).setOpponent hTeam
        (q.ginfo aTeam)) := by
      have hfirst : Consistent (q.setOpponent aTeam (q.ginfo hTeam)) :=
        h.modifyGroup ha (fun _ => rfl) rfl
      have hmem : hTeam ∈ (q.setOpponent aTeam (q.ginfo hTeam)).queuedGroups
        (bracketId, bgQueuePremade hSide) := hh
      exact hfirst.modifyGroup hmem (fun _ => rfl) rfl
    generalize hq : (q.setOpponent aTeam (q.ginfo hTeam)).setOpponent hTeam (q.ginfo aTeam) =
      q₁ at hrated ⊢
    have ha₁ : aTeam ∈ q₁.queuedGroups (bracketId, bgQueuePremade aSide) := hq ▸ ha
    have hh₁ : hTeam ∈ q₁.queuedGroups (bracketId, bgQueuePremade hSide) := hq ▸ hh
    have hinvited := hrated.invite_moveRated ha₁ 0 instanceId gameTime
    have hh₂ : hTeam ∈ ((q₁.moveRated bracketId 0 aTeam).inviteGroupToBG aTeam instanceId
        (some (teamOf 0)) gameTime).queuedGroups (bracketId, bgQueuePremade hSide) :=
      (relocates_moveRated hrated ha₁ 0).mem.mpr (.inr ⟨hne, hh₁⟩)
    have hplayed := hinvited.invite_moveRated hh₂ 1 instanceId gameTime
    rw [moveRated_inviteGroupToBG hne] at hplayed
    exact hplayed

/-- The second team is another group of the list of the first one. -/
theorem Consistent.updateRatedArena (h : Consistent q) (config : RatedConfig)
    (bracketId : BracketId) (arenaRating : UInt32) (arena : Option UInt32) :
    Consistent (q.updateRatedArena config bracketId arenaRating arena) := by
  unfold BattlegroundQueue.updateRatedArena
  dsimp only
  generalize (if arenaRating = 0 then q.frontRating bracketId else arenaRating) = rating
  have hsecond : ∀ {team : TeamId} {first second : GroupId},
      ((q.queuedGroups (bracketId, bgQueuePremade team)).dropWhile (· != first)).find?
        (fun group => q.matchesRating config rating group &&
          (q.ginfo first).arenaTeamId != (q.ginfo group).arenaTeamId) = some second →
      second ∈ q.queuedGroups (bracketId, bgQueuePremade team) ∧ second ≠ first := by
    intro team first second hfind
    refine ⟨(dropWhile_sublist _).subset (mem_of_find?_eq_some hfind), ?_⟩
    rintro rfl
    have hother := find?_some hfind
    simp at hother
  split
  · next aTeam hTeam ha hh =>
    have ha' := mem_of_find?_eq_some ha
    have hh' := mem_of_find?_eq_some hh
    refine h.startRatedMatch ha' hh' ?_ arena config.gameTime
    rintro rfl
    exact @bgQueuePremade_ne 0 1 (by decide) (congrArg Prod.snd (h.apart.unique ha' hh'))
  · next first ha _ =>
    split
    · next hTeam hfind =>
      obtain ⟨hmem, hne⟩ := hsecond hfind
      exact h.startRatedMatch (mem_of_find?_eq_some ha) hmem hne arena config.gameTime
    · exact h
  · next first _ hh =>
    split
    · next hTeam hfind =>
      obtain ⟨hmem, hne⟩ := hsecond hfind
      exact h.startRatedMatch (mem_of_find?_eq_some hh) hmem hne arena config.gameTime
    · exact h
  · exact h

/-! ### Calls in any order -/

/-- A queue after any calls: groups join with players that are not queued, invitations are for
groups of the lists and for the side that they are on, and no call runs over the end of a list. -/
inductive Reachable : BattlegroundQueue → Prop
  | empty : Reachable {}
  | addGroup {q : BattlegroundQueue} (h : Reachable q) (join : Join)
      (hnew : ∀ guid ∈ join.players, q.queuedPlayers guid = none) : Reachable (q.addGroup join)
  | removePlayer {q : BattlegroundQueue} (h : Reachable q) (guid : ObjectGuid) :
      Reachable (q.removePlayer guid)
  | initPools {q : BattlegroundQueue} (h : Reachable q) : Reachable q.initPools
  | checkPremadeMatch {q : BattlegroundQueue} (h : Reachable q) (bracketId : BracketId)
      (minPlayersPerTeam maxPlayersPerTeam : Nat) (timeBefore : UInt32) :
      Reachable (q.checkPremadeMatch bracketId minPlayersPerTeam maxPlayersPerTeam timeBefore).2
  | checkNormalMatch {q q' : BattlegroundQueue} (h : Reachable q) {config : MatchConfig}
      {bracketId : BracketId} {minPlayers maxPlayers : Nat} {found : Bool}
      (hcall : q.checkNormalMatch config bracketId minPlayers maxPlayers = some (found, q')) :
      Reachable q'
  | checkSkirmishForSameFaction {q q' : BattlegroundQueue} (h : Reachable q)
      {bracketId : BracketId} {minPlayersPerTeam : Nat} {found : Bool}
      (hcall : q.checkSkirmishForSameFaction bracketId minPlayersPerTeam = some (found, q')) :
      Reachable q'
  | inviteGroupToBG {q : BattlegroundQueue} (h : Reachable q) {group : GroupId}
      {k : BracketId × GroupType} (hg : group ∈ q.queuedGroups k) (instanceId gameTime : UInt32) :
      Reachable (q.inviteGroupToBG group instanceId (some (q.ginfo group).team) gameTime)
  | updateRatedArena {q : BattlegroundQueue} (h : Reachable q) (config : RatedConfig)
      (bracketId : BracketId) (arenaRating : UInt32) (arena : Option UInt32) :
      Reachable (q.updateRatedArena config bracketId arenaRating arena)

theorem Reachable.consistent (h : Reachable q) : Consistent q := by
  induction h with
  | empty => exact consistent_empty
  | addGroup _ join hnew ih => exact ih.addGroup hnew
  | removePlayer _ guid ih => exact ih.removePlayer guid
  | initPools _ ih => exact ih.initPools
  | checkPremadeMatch _ bracketId minPlayersPerTeam maxPlayersPerTeam timeBefore ih =>
    exact ih.checkPremadeMatch bracketId minPlayersPerTeam maxPlayersPerTeam timeBefore
  | checkNormalMatch _ hcall ih => exact ih.checkNormalMatch hcall
  | checkSkirmishForSameFaction _ hcall ih => exact ih.checkSkirmishForSameFaction hcall
  | inviteGroupToBG _ hg instanceId gameTime ih =>
    exact ih.inviteGroupToBG hg instanceId gameTime
  | updateRatedArena _ config bracketId arenaRating arena ih =>
    exact ih.updateRatedArena config bracketId arenaRating arena

/-! ### Updates -/

theorem Reachable.inviteAll {selected : List GroupId} (h : Reachable q)
    (hselected : ∀ group ∈ selected, (q.groups group).isSome = true)
    (instanceId gameTime : UInt32) :
    Reachable (selected.foldl (fun q group => q.inviteGroupToBG group instanceId
      (some (q.ginfo group).team) gameTime) q) := by
  induction selected generalizing q with
  | nil => exact h
  | cons group rest ih =>
    obtain ⟨hg, hrest⟩ := forall_mem_cons.mp hselected
    obtain ⟨info, hinfo⟩ := isSome_iff_exists.mp hg
    obtain ⟨k, hmem⟩ := h.consistent.placed hinfo
    refine ih (h.inviteGroupToBG hmem instanceId gameTime) fun other hother => ?_
    exact (isSome_modifyGroup _ other).trans (hrest other hother)

theorem inviteAll_isSome (selected : List GroupId) (instanceId gameTime : UInt32)
    (other : GroupId) :
    ((selected.foldl (fun q group => q.inviteGroupToBG group instanceId
      (some (q.ginfo group).team) gameTime) q).groups other).isSome =
      (q.groups other).isSome := by
  induction selected generalizing q with
  | nil => rfl
  | cons group rest ih =>
    rw [foldl_cons, ih]
    exact isSome_modifyGroup _ other

theorem Reachable.inviteSelected (h : Reachable q) {bound : Nat} (hpools : PoolsWithin bound q)
    (instanceId gameTime : UInt32) : Reachable (q.inviteSelected instanceId gameTime) := by
  unfold BattlegroundQueue.inviteSelected
  apply (h.inviteAll (hpools 0).selected instanceId gameTime).inviteAll
  intro group hmem
  rw [inviteAll_isSome]
  exact (hpools 1).selected group hmem

theorem initPools_empty (q : BattlegroundQueue) (team : TeamId) :
    q.initPools.selectionPools team = {} := by
  unfold initPools initPool
  dsimp only
  by_cases hone : team = 1
  · rw [hone, Function.update_self]
  · have hzero : team = 0 := eq_otherTeam hone
    rw [Function.update_of_ne hone, hzero, Function.update_self]

/-- A premade match leaves the pools empty. -/
theorem Reachable.updatePremade (h : Reachable q) (hempty : ∀ team, q.selectionPools team = {})
    {u : Update} (hcall : q.updatePremade u = some q') :
    Reachable q' ∧ ∀ team, q'.selectionPools team = {} := by
  unfold BattlegroundQueue.updatePremade at hcall
  split at hcall
  · cases hcall
    exact ⟨h, hempty⟩
  · have hnext := h.checkPremadeMatch u.bracketId u.minPlayersPerTeam u.maxPlayersPerTeam
      u.timeBefore
    obtain ⟨hfound, hnone⟩ := h.consistent.pools_checkPremadeMatch hempty u.bracketId
      u.minPlayersPerTeam u.maxPlayersPerTeam u.timeBefore
    split at hcall
    · next hresult =>
      cases hcall
      rw [hresult] at hnext hnone
      exact ⟨hnext, hnone rfl⟩
    · next q₁ hresult =>
      rw [hresult] at hnext hfound
      obtain ⟨bg2, -, rfl⟩ := map_eq_some_iff.mp hcall
      exact ⟨(hnext.inviteSelected (hfound rfl) bg2 u.rated.gameTime).initPools, initPools_empty _⟩

/-- A match that is not rated is looked for without running over the end of a list. -/
theorem Reachable.checkMatch (h : Reachable q) (hempty : ∀ team, q.selectionPools team = {})
    {u : Update} (hmin : 0 < u.minPlayersPerTeam)
    (harena : u.isArena = true → u.minPlayersPerTeam = u.maxPlayersPerTeam) :
    ∃ found q', q.checkMatch u = some (found, q') ∧ Reachable q' ∧
      PoolsWithin u.maxPlayersPerTeam q' := by
  obtain ⟨found, q₁, hnormal, hpools⟩ := h.consistent.exists_checkNormalMatch hempty u.config
    u.bracketId hmin u.maxPlayersPerTeam
  have hnext := h.checkNormalMatch hnormal
  unfold BattlegroundQueue.checkMatch
  rw [hnormal, bind_eq_bind, bind_some]
  dsimp only
  split
  · next hskirmish =>
    rw [Bool.and_eq_true] at hskirmish
    rw [harena hskirmish.2] at hmin ⊢
    obtain ⟨found', q₂, hcall, hpools'⟩ :=
      hnext.consistent.exists_checkSkirmish hmin hpools u.bracketId
    exact ⟨found', q₂, hcall, hnext.checkSkirmishForSameFaction hcall, hpools'⟩
  · exact ⟨found, q₁, rfl, hnext, hpools⟩

/-- An update consists of calls that are defined. -/
theorem Reachable.battlegroundQueueUpdate (h : Reachable q) {u : Update}
    (hmin : 0 < u.minPlayersPerTeam)
    (harena : u.isArena = true → u.minPlayersPerTeam = u.maxPlayersPerTeam) :
    ∃ q', q.battlegroundQueueUpdate u = some q' ∧ Reachable q' := by
  unfold BattlegroundQueue.battlegroundQueueUpdate
  split
  · exact ⟨q, rfl, h⟩
  · dsimp only
    split
    · exact ⟨_, rfl, h.initPools.checkPremadeMatch _ _ _ _⟩
    · next q₁ hpremade =>
      obtain ⟨hnext, hempty⟩ := h.initPools.updatePremade (initPools_empty q) hpremade
      split
      · split
        · exact ⟨_, rfl, hnext.updateRatedArena _ _ _ _⟩
        · exact ⟨_, rfl, hnext⟩
      · obtain ⟨found, q₂, hcall, hmatch, hpools⟩ := hnext.checkMatch hempty hmin harena
        rw [hcall, bind_eq_bind, bind_some]
        dsimp only
        split
        · exact ⟨_, rfl, hmatch.inviteSelected hpools _ _⟩
        · exact ⟨_, rfl, hmatch⟩

/-! ### The index -/

/-- What the index promises of every queued player: its group has just the players that point to
it, stands once in one list, on the side of its team, and is found by `RemovePlayer`. -/
def GroupIndex (q : BattlegroundQueue) : Prop :=
  ∀ guid group, q.queuedPlayers guid = some group →
    ∃ info, q.groups group = some info ∧ info.players ≠ [] ∧
      (∀ guid', guid' ∈ info.players ↔ q.queuedPlayers guid' = some group) ∧
      ∃ k, (∀ k', (q.queuedGroups k').count group = if k' = k then 1 else 0) ∧
        k.2.team = info.team.id ∧ q.findGroupInfo group = some k

theorem Consistent.groupIndex (h : Consistent q) : GroupIndex q := by
  intro guid group hqueued
  obtain ⟨info, hinfo⟩ := h.alive hqueued
  obtain ⟨k, hg⟩ := h.placed hinfo
  obtain ⟨info', hinfo', hside⟩ := h.side hg
  cases hinfo.symm.trans hinfo'
  refine ⟨info, hinfo, ?_, h.pointed hinfo, k, h.apart.count_eq hg, hside.symm, h.findGroupInfo hg⟩
  exact ne_nil_of_mem ((h.pointed hinfo guid).mpr hqueued)

/-- The index is consistent after any calls, and updates are made of such calls. -/
theorem groupIndex_of_reachable (h : Reachable q) :
    GroupIndex q ∧ ∀ u : Update, 0 < u.minPlayersPerTeam →
      (u.isArena = true → u.minPlayersPerTeam = u.maxPlayersPerTeam) →
      ∃ q', q.battlegroundQueueUpdate u = some q' ∧ Reachable q' :=
  ⟨h.consistent.groupIndex, fun _ hmin harena => h.battlegroundQueueUpdate hmin harena⟩

/-- A rated arena team of the alliance, of two players. -/
def allianceTeam (arenaTeamId : UInt32) (leader member : ObjectGuid) : Join where
  leader := leader
  team := .alliance
  grp := some [leader, member]
  bracketId := 15
  arenaType := 2
  isRated := true
  arenaRating := 1500
  matchmakerRating := 1500
  arenaTeamId := arenaTeamId

/-- Two teams of one side, of which the second one is moved for their match. -/
def twoTeams : BattlegroundQueue :=
  ((({} : BattlegroundQueue).addGroup (allianceTeam 1 10 11)).addGroup
    (allianceTeam 2 20 21)).updateRatedArena ⟨150, 600000, 1000⟩ 15 1500 (some 7)

theorem groupIndex_of_reachable_twoTeams :
    twoTeams.queuedGroups (15, 0) = [0] ∧ twoTeams.queuedGroups (15, 1) = [1] ∧
      GroupIndex twoTeams ∧ ∀ u : Update, 0 < u.minPlayersPerTeam →
        (u.isArena = true → u.minPlayersPerTeam = u.maxPlayersPerTeam) →
        ∃ q', twoTeams.battlegroundQueueUpdate u = some q' ∧ Reachable q' := by
  have hfirst := Reachable.empty.addGroup (allianceTeam 1 10 11) (fun _ _ => rfl)
  have hleader : (({} : BattlegroundQueue).addGroup (allianceTeam 1 10 11)).queuedPlayers 20 =
      none := by decide +kernel
  have hmember : (({} : BattlegroundQueue).addGroup (allianceTeam 1 10 11)).queuedPlayers 21 =
      none := by decide +kernel
  have hsecond := hfirst.addGroup (allianceTeam 2 20 21)
    (List.forall_mem_cons.mpr ⟨hleader, List.forall_mem_cons.mpr ⟨hmember, by simp⟩⟩)
  exact ⟨by decide +kernel, by decide +kernel,
    groupIndex_of_reachable (hsecond.updateRatedArena _ _ _ _)⟩

end TrinityCore.Battlegrounds.BattlegroundQueue
