import TrinityCore.Battlegrounds.GroupIndex

/-!
# Matches keep the index

The routines that look for matches move groups from list to list, in one step of the index each,
and fill the selection pools with groups that are not deleted.
-/

namespace TrinityCore.Battlegrounds

open Function List

open Placement

/-- A pool of groups that `P` holds of, with at most `bound` players. -/
structure SelectionPool.Within (P : GroupId → Prop) (bound : Nat) (pool : SelectionPool) :
    Prop where
  selected : ∀ group ∈ pool.selectedGroups, P group
  count : pool.playerCount ≤ bound
  nonempty : 0 < pool.playerCount → pool.selectedGroups ≠ []

theorem within_empty (P : GroupId → Prop) (bound : Nat) : SelectionPool.Within P bound {} :=
  ⟨nofun, Nat.zero_le _, nofun⟩

variable {teamIndex : TeamId}

namespace BattlegroundQueue

variable {q q' : BattlegroundQueue} {group : GroupId} {pool : SelectionPool}
  {P : GroupId → Prop} {bound desired : Nat} {bracketId : BracketId}

/-! ### Selection pools -/

theorem within_addToPool (h : pool.Within P bound) (hg : P group) (hdesired : desired ≤ bound) :
    (q.addToPool pool group desired).2.Within P bound := by
  unfold addToPool
  dsimp only
  split
  · next hfits =>
    rw [Bool.and_eq_true, decide_eq_true_eq] at hfits
    refine ⟨fun other hmem => ?_, hfits.2.trans hdesired, fun _ => by simp⟩
    cases mem_append.mp hmem with
    | inl hmem => exact h.selected other hmem
    | inr hmem => exact mem_singleton.mp hmem ▸ hg
  · exact h

theorem within_fillPool {groups : List GroupId} (h : pool.Within P bound)
    (hgroups : ∀ group ∈ groups, P group) (hdesired : desired ≤ bound) :
    (q.fillPool desired groups pool).Within P bound := by
  induction groups generalizing pool with
  | nil => exact h
  | cons group rest ih =>
    obtain ⟨hg, hrest⟩ := forall_mem_cons.mp hgroups
    unfold fillPool
    split
    · exact ih h hrest
    · have hadded := @within_addToPool q group pool P bound desired h hg hdesired
      split
      · next hadd =>
        rw [hadd] at hadded
        exact ih hadded hrest
      · next hadd =>
        rw [hadd] at hadded
        exact hadded

/-- What is added to a pool are groups of the list, in its order. -/
theorem selectedGroups_fillPool (desired : Nat) (groups : List GroupId) (pool : SelectionPool) :
    ∃ added, (q.fillPool desired groups pool).selectedGroups = pool.selectedGroups ++ added ∧
      added.Sublist groups := by
  induction groups generalizing pool with
  | nil => exact ⟨[], (append_nil _).symm, nil_sublist _⟩
  | cons group rest ih =>
    have hadd : (q.addToPool pool group desired).2 = pool ∨
        (q.addToPool pool group desired).2.selectedGroups = pool.selectedGroups ++ [group] := by
      unfold addToPool
      dsimp only
      split
      · exact .inr rfl
      · exact .inl rfl
    unfold fillPool
    split
    · obtain ⟨added, hadded, hsub⟩ := ih pool
      exact ⟨added, hadded, hsub.cons _⟩
    · split
      · next pool' heq =>
        rw [heq] at hadd
        obtain ⟨added, hadded, hsub⟩ := ih pool'
        rcases hadd with rfl | hadd
        · exact ⟨added, hadded, hsub.cons _⟩
        · refine ⟨group :: added, ?_, hsub.cons_cons _⟩
          rw [hadded, hadd, append_assoc]
          rfl
      · next pool' heq =>
        rw [heq] at hadd
        rcases hadd with rfl | hadd
        · exact ⟨[], (append_nil _).symm, nil_sublist _⟩
        · exact ⟨[group], hadd, (nil_sublist _).cons_cons _⟩

/-- The selection of a normal match, and the groups from its iterator on. -/
theorem within_selectEnough {minPlayers maxPlayers : Nat} {groups : List GroupId}
    (h : pool.Within P maxPlayers) (hgroups : ∀ group ∈ groups, P group) :
    (q.selectEnough minPlayers maxPlayers groups pool).1.Within P maxPlayers ∧
      ∀ group ∈ (q.selectEnough minPlayers maxPlayers groups pool).2, P group := by
  induction groups generalizing pool with
  | nil => exact ⟨h, nofun⟩
  | cons group rest ih =>
    obtain ⟨hg, hrest⟩ := forall_mem_cons.mp hgroups
    unfold selectEnough
    split
    · exact ih h hrest
    · have hadded := @within_addToPool q group pool P maxPlayers maxPlayers h hg (Nat.le_refl _)
      dsimp only
      split
      · exact ⟨hadded, hgroups⟩
      · exact ih hadded hrest

/-- With enough players the iterator is at a group. -/
theorem selectEnough_ne_nil {minPlayers maxPlayers : Nat} {groups : List GroupId}
    (hpool : pool.playerCount < minPlayers)
    (h : minPlayers ≤ (q.selectEnough minPlayers maxPlayers groups pool).1.playerCount) :
    (q.selectEnough minPlayers maxPlayers groups pool).2 ≠ [] := by
  induction groups generalizing pool with
  | nil => exact absurd h (Nat.not_le.mpr hpool)
  | cons group rest ih =>
    unfold selectEnough at h ⊢
    split
    · next hinvited =>
      rw [if_pos hinvited] at h
      exact ih hpool h
    · next hinvited =>
      rw [if_neg hinvited] at h
      dsimp only at h ⊢
      split
      · exact cons_ne_nil _ _
      · next hfew =>
        rw [if_neg hfew] at h
        exact ih (Nat.not_le.mp hfew) h

/-- Both pools have groups that are not deleted. -/
def PoolsWithin (bound : Nat) (q : BattlegroundQueue) : Prop :=
  ∀ team, (q.selectionPools team).Within (fun group => (q.groups group).isSome = true) bound

theorem Consistent.isSome_of_mem (h : Consistent q) {k : BracketId × GroupType}
    (hg : group ∈ q.queuedGroups k) : (q.groups group).isSome = true := by
  obtain ⟨info, hinfo, -⟩ := h.side hg
  rw [hinfo]
  rfl

theorem isSome_modifyGroup (f : GroupQueueInfo → GroupQueueInfo) (other : GroupId) :
    ((q.modifyGroup group f).groups other).isSome = (q.groups other).isSome := by
  by_cases hne : other = group
  · rw [hne, modifyGroup_self, Option.isSome_map]
  · rw [modifyGroup_ne hne]

/-! ### Premade groups -/

theorem Consistent.movePremade (h : Consistent q) (bracketId : BracketId)
    (minPlayersPerTeam : Nat) (timeBefore : UInt32) (team : TeamId) :
    Consistent (q.movePremade bracketId minPlayersPerTeam timeBefore team) := by
  unfold BattlegroundQueue.movePremade
  split
  · exact h
  · next group rest hlist =>
    have hg : group ∈ q.queuedGroups (bracketId, bgQueuePremade team) := by
      rw [hlist]
      exact mem_cons_self
    have hne : (bracketId, bgQueueNormal team) ≠ (bracketId, bgQueuePremade team) :=
      fun heq => normal_ne_premade team (congrArg Prod.snd heq)
    dsimp only
    split
    · apply h.relocate hg (h.apart.relocates_move hg hne) (f := id)
      · unfold BattlegroundQueue.modifyGroup
        dsimp only
        rw [Option.map_id, id, update_eq_self]
      · rfl
      · rfl
      · exact fun _ => rfl
      · obtain ⟨info, hinfo, hside⟩ := h.side hg
        rw [id, ginfo_of_groups hinfo, hside, team_bgQueuePremade, team_bgQueueNormal]
    · exact h

theorem selectionPools_movePremade (bracketId : BracketId) (minPlayersPerTeam : Nat)
    (timeBefore : UInt32) (team : TeamId) :
    (q.movePremade bracketId minPlayersPerTeam timeBefore team).selectionPools =
      q.selectionPools := by
  unfold movePremade
  split
  · rfl
  · dsimp only
    split
    · rfl
    · rfl

theorem Consistent.checkPremadeMatch (h : Consistent q) (bracketId : BracketId)
    (minPlayersPerTeam maxPlayersPerTeam : Nat) (timeBefore : UInt32) :
    Consistent
      (q.checkPremadeMatch bracketId minPlayersPerTeam maxPlayersPerTeam timeBefore).2 := by
  unfold BattlegroundQueue.checkPremadeMatch
  dsimp only
  split
  · exact (h.setPool _ _).setPool _ _
  · exact (h.movePremade _ _ _ _).movePremade _ _ _ _

/-- The pools of a premade match; without one they stay as they are. -/
theorem Consistent.pools_checkPremadeMatch (h : Consistent q)
    (hempty : ∀ team, q.selectionPools team = {}) (bracketId : BracketId)
    (minPlayersPerTeam maxPlayersPerTeam : Nat) (timeBefore : UInt32) :
    let result := q.checkPremadeMatch bracketId minPlayersPerTeam maxPlayersPerTeam timeBefore
    (result.1 = true → PoolsWithin maxPlayersPerTeam result.2) ∧
      (result.1 = false → ∀ team, result.2.selectionPools team = {}) := by
  unfold BattlegroundQueue.checkPremadeMatch
  dsimp only
  split
  · next aliGroup hordeGroup hali hhorde =>
    refine ⟨fun _ => ?_, nofun⟩
    have hlist : ∀ k, ∀ group ∈ q.queuedGroups k, (q.groups group).isSome = true :=
      fun k group hg => h.isSome_of_mem hg
    have hali : (q.addToPool (q.selectionPools 0) aliGroup maxPlayersPerTeam).2.Within
        (fun group => (q.groups group).isSome = true) maxPlayersPerTeam := by
      apply within_addToPool _ (hlist _ _ (mem_of_find?_eq_some hali)) (Nat.le_refl _)
      rw [hempty]
      exact within_empty _ _
    have hhorde : (q.addToPool (q.selectionPools 1) hordeGroup maxPlayersPerTeam).2.Within
        (fun group => (q.groups group).isSome = true) maxPlayersPerTeam := by
      apply within_addToPool _ (hlist _ _ (mem_of_find?_eq_some hhorde)) (Nat.le_refl _)
      rw [hempty]
      exact within_empty _ _
    refine Fin.forall_fin_two.mpr ⟨?_, ?_⟩
    · exact within_fillPool hali (hlist _) ((Nat.min_le_left _ _).trans hali.count)
    · exact within_fillPool hhorde (hlist _) ((Nat.min_le_right _ _).trans hhorde.count)
  · refine ⟨nofun, fun _ team => ?_⟩
    rw [selectionPools_movePremade, selectionPools_movePremade]
    exact hempty team

/-! ### Normal matches -/

theorem Consistent.inviteMore (h : Consistent q) {config : MatchConfig} {minPlayers : Nat}
    {j : TeamId} {iterator : List GroupId} {found : Bool}
    (hcall : q.inviteMore config minPlayers j iterator = some (found, q')) : Consistent q' := by
  unfold BattlegroundQueue.inviteMore at hcall
  split at hcall
  · cases hcall
  · dsimp only at hcall
    split at hcall
    · cases hcall
      exact h.setPool _ _
    · cases hcall
      exact h.setPool _ _

theorem Consistent.checkNormalMatch (h : Consistent q) {config : MatchConfig}
    {minPlayers maxPlayers : Nat} {found : Bool}
    (hcall : q.checkNormalMatch config bracketId minPlayers maxPlayers = some (found, q')) :
    Consistent q' := by
  unfold BattlegroundQueue.checkNormalMatch at hcall
  dsimp only at hcall
  split at hcall
  · split at hcall
    · exact ((h.setPool 0 _).setPool 1 _).inviteMore hcall
    · exact ((h.setPool 0 _).setPool 1 _).inviteMore hcall
  · cases hcall
    exact (h.setPool 0 _).setPool 1 _

theorem PoolsWithin.setPool {team : TeamId} (h : PoolsWithin bound q)
    (hpool : pool.Within (fun group => (q.groups group).isSome = true) bound) :
    PoolsWithin bound (q.setPool team pool) := by
  intro team'
  unfold BattlegroundQueue.setPool
  dsimp only
  by_cases hteam : team' = team
  · rw [hteam, update_self]
    exact hpool
  · rw [update_of_ne hteam]
    exact h team'

/-- More groups are invited from an iterator that is at a group. -/
theorem PoolsWithin.inviteMore (h : PoolsWithin bound q) (config : MatchConfig)
    (minPlayers : Nat) (j : TeamId) {iterator : List GroupId} (hne : iterator ≠ [])
    (hgroups : ∀ group ∈ iterator, (q.groups group).isSome = true) :
    ∃ found q', q.inviteMore config minPlayers j iterator = some (found, q') ∧
      PoolsWithin bound q' := by
  cases iterator with
  | nil => exact absurd rfl hne
  | cons group rest =>
    have hfill := @within_fillPool q (q.selectionPools j) _ bound
      (q.selectionPools (otherTeam j)).playerCount rest (h j)
      (forall_mem_cons.mp hgroups).2 (h (otherTeam j)).count
    have hset := @PoolsWithin.setPool q _ bound j h hfill
    unfold BattlegroundQueue.inviteMore
    dsimp only
    split
    · exact ⟨_, _, rfl, hset⟩
    · exact ⟨_, _, rfl, hset⟩

/-- On empty pools a normal match is looked for without running over the end of a list. -/
theorem Consistent.exists_checkNormalMatch (h : Consistent q)
    (hempty : ∀ team, q.selectionPools team = {}) (config : MatchConfig) (bracketId : BracketId)
    {minPlayers : Nat} (hmin : 0 < minPlayers) (maxPlayers : Nat) :
    ∃ found q', q.checkNormalMatch config bracketId minPlayers maxPlayers = some (found, q') ∧
      PoolsWithin maxPlayers q' := by
  have hselect := fun team => @within_selectEnough q (q.selectionPools team)
    (fun group => (q.groups group).isSome = true) minPlayers maxPlayers
    (q.queuedGroups (bracketId, bgQueueNormal team))
    (by rw [hempty]; exact within_empty _ _) fun group hg => h.isSome_of_mem hg
  have hiterator := fun team => @selectEnough_ne_nil q (q.selectionPools team) minPlayers maxPlayers
    (q.queuedGroups (bracketId, bgQueueNormal team)) (by rw [hempty]; exact hmin)
  have hpools : PoolsWithin maxPlayers q := by
    intro team
    rw [hempty]
    exact within_empty _ _
  have hset := @PoolsWithin.setPool _ _ maxPlayers 1
    (@PoolsWithin.setPool q _ maxPlayers 0 hpools (hselect 0).1) (hselect 1).1
  unfold BattlegroundQueue.checkNormalMatch
  dsimp only
  split
  · next henough =>
    rw [Bool.and_eq_true, Bool.and_eq_true, decide_eq_true_eq, decide_eq_true_eq] at henough
    split
    · exact hset.inviteMore config minPlayers 1 (hiterator 1 henough.1.2) (hselect 1).2
    · exact hset.inviteMore config minPlayers 0 (hiterator 0 henough.2) (hselect 0).2
  · exact ⟨_, _, rfl, hset⟩

/-! ### Skirmishes -/

theorem mem_changeTeam (h : Consistent q)
    (hg : group ∈ q.queuedGroups (bracketId, bgQueueNormal teamIndex)) :
    Relocates q.queuedGroups (q.changeTeam bracketId teamIndex group).queuedGroups group
      (bracketId, bgQueueNormal (otherTeam teamIndex)) :=
  h.apart.relocates_move hg fun heq =>
    bgQueueNormal_ne (otherTeam_ne teamIndex) (congrArg Prod.snd heq)

theorem Consistent.changeTeam (h : Consistent q)
    (hg : group ∈ q.queuedGroups (bracketId, bgQueueNormal teamIndex)) :
    Consistent (q.changeTeam bracketId teamIndex group) := by
  apply h.relocate hg (mem_changeTeam h hg) rfl rfl rfl fun _ => rfl
  dsimp only
  rw [id_teamOf, team_bgQueueNormal]

/-- The groups of a pool change their team one by one. -/
theorem Consistent.changeTeams {selected : List GroupId} (h : Consistent q)
    (hnodup : selected.Nodup)
    (hgroups : ∀ group ∈ selected, group ∈ q.queuedGroups (bracketId, bgQueueNormal teamIndex)) :
    Consistent (selected.foldl (fun q => q.changeTeam bracketId teamIndex) q) := by
  induction selected generalizing q with
  | nil => exact h
  | cons group rest ih =>
    obtain ⟨hg, hrest⟩ := forall_mem_cons.mp hgroups
    obtain ⟨hnew, hnodup⟩ := nodup_cons.mp hnodup
    refine ih (h.changeTeam hg) hnodup fun other hmem => ?_
    rw [(mem_changeTeam h hg).mem]
    exact .inr ⟨fun heq => hnew (heq ▸ hmem), hrest other hmem⟩

theorem changeTeams_isSome (selected : List GroupId) (other : GroupId) :
    ((selected.foldl (fun q => q.changeTeam bracketId teamIndex) q).groups other).isSome =
      (q.groups other).isSome := by
  induction selected generalizing q with
  | nil => rfl
  | cons group rest ih =>
    rw [foldl_cons, ih]
    exact isSome_modifyGroup _ other

theorem changeTeams_pools (selected : List GroupId) :
    (selected.foldl (fun q => q.changeTeam bracketId teamIndex) q).selectionPools =
      q.selectionPools := by
  induction selected generalizing q with
  | nil => rfl
  | cons group rest ih =>
    rw [foldl_cons, ih]
    rfl

theorem mem_of_dropWhile {p : GroupId → Bool} {groups behind : List GroupId} {first : GroupId}
    (h : groups.dropWhile p = first :: behind) : (first :: behind).Sublist groups := by
  rw [← h]
  exact (dropWhile_suffix p).sublist

theorem Consistent.checkSkirmishForSameFaction (h : Consistent q) {minPlayersPerTeam : Nat}
    {found : Bool}
    (hcall : q.checkSkirmishForSameFaction bracketId minPlayersPerTeam = some (found, q')) :
    Consistent q' := by
  unfold BattlegroundQueue.checkSkirmishForSameFaction at hcall
  split at hcall
  · cases hcall
    exact h
  · dsimp only at hcall
    generalize (if (q.selectionPools 1).playerCount = minPlayersPerTeam then 1 else 0 : TeamId) =
      teamIndex at hcall
    have hinit := h.initPool (otherTeam teamIndex)
    split at hcall
    · cases hcall
    · next last _ =>
      split at hcall
      · cases hcall
        exact hinit
      · next first behind hbehind =>
        obtain ⟨added, hadded, hsub⟩ := @selectedGroups_fillPool
          (q.initPool (otherTeam teamIndex)) minPlayersPerTeam behind {}
        split at hcall
        · cases hcall
          exact hinit.setPool _ _
        · cases hcall
          have hwhole : added.Sublist (q.queuedGroups (bracketId, bgQueueNormal teamIndex)) :=
            (hsub.cons first).trans (mem_of_dropWhile hbehind)
          rw [hadded]
          apply (hinit.setPool _ _).changeTeams
          · exact hwhole.nodup (h.apart.nodup _)
          · exact fun group hmem => hwhole.subset hmem

/-- A skirmish is looked for where a pool is full, and then it has a last group. -/
theorem Consistent.exists_checkSkirmish (h : Consistent q) {minPlayersPerTeam : Nat}
    (hmin : 0 < minPlayersPerTeam) (hpools : PoolsWithin minPlayersPerTeam q)
    (bracketId : BracketId) :
    ∃ found q', q.checkSkirmishForSameFaction bracketId minPlayersPerTeam = some (found, q') ∧
      PoolsWithin minPlayersPerTeam q' := by
  unfold BattlegroundQueue.checkSkirmishForSameFaction
  split
  · exact ⟨_, _, rfl, hpools⟩
  · next hfew =>
    dsimp only
    obtain ⟨teamIndex, hindex⟩ : ∃ teamIndex : TeamId,
      (if (q.selectionPools 1).playerCount = minPlayersPerTeam then 1 else 0) = teamIndex :=
      ⟨_, rfl⟩
    rw [hindex]
    have hcount : minPlayersPerTeam ≤ (q.selectionPools teamIndex).playerCount := by
      have hhorde := (hpools 1).count
      rw [← hindex]
      split
      · next heq => exact heq.ge
      · next hne => omega
    have hother : (q.initPool (otherTeam teamIndex)).selectionPools teamIndex =
        q.selectionPools teamIndex := update_of_ne (otherTeam_ne teamIndex).symm _ _
    have hinit : PoolsWithin minPlayersPerTeam (q.initPool (otherTeam teamIndex)) :=
      hpools.setPool (within_empty _ _)
    rw [hother]
    cases hlast : (q.selectionPools teamIndex).selectedGroups.getLast? with
    | none =>
      exact absurd (getLast?_eq_none_iff.mp hlast)
        ((hpools teamIndex).nonempty (hmin.trans_le hcount))
    | some last =>
      dsimp only
      split
      · exact ⟨_, _, rfl, hinit⟩
      · next first behind hbehind =>
        have hfill := @within_fillPool (q.initPool (otherTeam teamIndex)) {}
          (fun group => (q.groups group).isSome = true) minPlayersPerTeam minPlayersPerTeam behind
          (within_empty _ _)
          (fun group hmem => h.isSome_of_mem
            ((mem_of_dropWhile hbehind).subset (mem_cons_of_mem _ hmem))) (Nat.le_refl _)
        have hset := @PoolsWithin.setPool _ _ _ (otherTeam teamIndex) hinit hfill
        split
        · exact ⟨_, _, rfl, hset⟩
        · refine ⟨_, _, rfl, fun team => ?_⟩
          rw [changeTeams_pools]
          obtain ⟨hselected, hbound, hnonempty⟩ := hset team
          refine ⟨fun group hmem => ?_, hbound, hnonempty⟩
          rw [changeTeams_isSome]
          exact hselected group hmem

end BattlegroundQueue

end TrinityCore.Battlegrounds
