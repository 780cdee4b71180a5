import TrinityCore.DungeonFinding.GroupRoles
import TrinityCore.DungeonFinding.LFGQueue

/-!
# The checks of one combination

What each loop of `CheckCompatibility` finds out about a list of entries: a common dungeon, the
number of players, whether players ignore each other, and whether they can be given roles.
-/

namespace TrinityCore.DungeonFinding

open List Option

open Std TreeMapLists

namespace LFGQueue

variable (q : LFGQueue)

/-! ### Entries -/

/-- What an entry was queued with. -/
structure Entry where
  dungeons : LfgDungeonSet
  roles : LfgRolesMap

/-- The entries by their guids. -/
def entries (guid : ObjectGuid) : Option Entry :=
  q.queueDataStore[guid]?.map fun data => ⟨data.dungeons, data.roles⟩

/-- The players of some entries, with their roles. -/
def players (check : List ObjectGuid) : List (ObjectGuid × UInt8) :=
  check.flatMap fun guid => (q.rolesOf guid).toList

/-- The number of the players. -/
def total (check : List ObjectGuid) : Nat := (q.players check).length

variable {q} {q' : LFGQueue}

section

variable (h : q'.entries = q.entries)
include h

theorem dungeonsOf_congr : q'.dungeonsOf = q.dungeonsOf := by
  funext guid
  have hentry := congrArg (Option.map Entry.dungeons) (congrFun h guid)
  simp only [entries, Option.map_map] at hentry
  exact congrArg (getD · ∅) hentry

theorem rolesOf_congr : q'.rolesOf = q.rolesOf := by
  funext guid
  have hentry := congrArg (Option.map Entry.roles) (congrFun h guid)
  simp only [entries, Option.map_map] at hentry
  exact congrArg (getD · ∅) hentry

theorem players_congr : q'.players = q.players := by
  funext check
  rw [players, players, rolesOf_congr h]

theorem total_congr : q'.total = q.total := by
  funext check
  rw [total, total, players_congr h]

end

theorem exists_data_of_isSome {guid : ObjectGuid} (h : (q.entries guid).isSome) :
    ∃ data, q.queueDataStore[guid]? = some data ∧ q.rolesOf guid = data.roles := by
  obtain ⟨entry, hentry⟩ := isSome_iff_exists.mp h
  obtain ⟨data, hdata, _⟩ := map_eq_some_iff.mp hentry
  exact ⟨data, hdata, by rw [rolesOf, hdata]; rfl⟩

theorem total_cons (guid : ObjectGuid) (rest : List ObjectGuid) :
    q.total (guid :: rest) = (q.rolesOf guid).size + q.total rest := by
  rw [total, players, flatMap_cons, length_append, ExtTreeMap.length_toList]
  rfl

/-! ### The dungeon -/

theorem mem_commonDungeons_iff {guid : ObjectGuid} {rest : List ObjectGuid} {id : UInt32} :
    id ∈ q.commonDungeons (guid :: rest) ↔ ∀ other ∈ guid :: rest, id ∈ q.dungeonsOf other := by
  have hfold (s : LfgDungeonSet) : id ∈ rest.foldl
      (fun proposalDungeons guid => proposalDungeons.filter (· ∈ q.dungeonsOf guid)) s ↔
        id ∈ s ∧ ∀ other ∈ rest, id ∈ q.dungeonsOf other := by
    induction rest generalizing s with
    | nil => simp
    | cons other rest ih =>
      rw [foldl_cons, ih, forall_mem_cons, ← and_assoc]
      simp [ExtTreeSet.mem_filter]
  rw [commonDungeons, hfold, forall_mem_cons]

variable {store : LfgDungeonStore} {mgr : LFGMgr}

/-- The dungeon drawn is one of those given, and exists. -/
theorem drawDungeon_eq_some {draw : Nat → Nat} {left : Nat} {dungeons : LfgDungeonSet}
    {id : UInt32} {dungeon : LFGDungeonData}
    (h : drawDungeon store draw left dungeons = some (id, dungeon)) :
    id ∈ dungeons ∧ store id = some dungeon := by
  induction left generalizing dungeons with
  | zero => cases h
  | succ left ih =>
    rw [drawDungeon] at h
    split at h
    · cases h
    · next drawn hdrawn =>
      split at h
      · next data hdata =>
        cases h
        exact ⟨ExtTreeSet.mem_toList.mp (mem_of_getElem? hdrawn), hdata⟩
      · obtain ⟨hmem, hstore⟩ := ih h
        exact ⟨(ExtTreeSet.mem_erase.mp hmem).2, hstore⟩

/-- When none is drawn, none of them exists. -/
theorem drawDungeon_eq_none {draw : Nat → Nat} {left : Nat} {dungeons : LfgDungeonSet}
    (hleft : dungeons.size ≤ left) (h : drawDungeon store draw left dungeons = none)
    {id : UInt32} (hid : id ∈ dungeons) : store id = none := by
  induction left generalizing dungeons with
  | zero =>
    have hlen : dungeons.toList.length = 0 := by
      rw [ExtTreeSet.length_toList]
      exact Nat.le_zero.mp hleft
    rw [← ExtTreeSet.mem_toList, eq_nil_of_length_eq_zero hlen] at hid
    exact (not_mem_nil hid).elim
  | succ left ih =>
    have hpos : 0 < dungeons.size := by
      rw [← ExtTreeSet.length_toList]
      exact length_pos_of_mem (ExtTreeSet.mem_toList.mpr hid)
    rw [drawDungeon] at h
    split at h
    · next hdrawn =>
      have hlen := List.getElem?_eq_none_iff.mp hdrawn
      rw [ExtTreeSet.length_toList] at hlen
      exact absurd (Nat.mod_lt (draw left) hpos) (Nat.not_lt.mpr hlen)
    · next drawn hdrawn =>
      have hmem : drawn ∈ dungeons := ExtTreeSet.mem_toList.mp (mem_of_getElem? hdrawn)
      split at h
      · cases h
      · next hnone =>
        by_cases heq : drawn = id
        · rw [← heq, hnone]
        · apply ih _ h
          · apply ExtTreeSet.mem_erase.mpr
            exact ⟨fun hcmp => heq (LawfulEqOrd.eq_of_compare hcmp), hid⟩
          · have hcontains : dungeons.contains drawn = true := hmem
            rw [ExtTreeSet.size_erase, if_pos hcontains]
            omega

/-! ### The number of players -/

/-- The loop counts all players, or stops above the size of the group. A group of the manager
stops it, so none may come before the last entry; and the counter is a byte. -/
theorem countPlayers_eq {maxGroupSize : UInt32} {rest : List ObjectGuid} (tally : Tally)
    (hqueued : ∀ guid ∈ rest, (q.entries guid).isSome)
    (hsmall : ∀ guid ∈ rest, (q.rolesOf guid).size + maxGroupSize.toNat < 256)
    (hlast : ∀ guid ∈ rest.dropLast, mgr.isLfgGroup guid = false) (hnone : tally.numLfgGroups = 0) :
    ∃ counted, q.countPlayers mgr maxGroupSize rest tally = .ok counted ∧
      counted.numLfgGroups ≤ 1 ∧
        if tally.numPlayers.toNat + q.total rest ≤ maxGroupSize.toNat then
          counted.numPlayers.toNat = tally.numPlayers.toNat + q.total rest
        else maxGroupSize.toNat < counted.numPlayers.toNat := by
  induction rest generalizing tally with
  | nil =>
    refine ⟨tally, rfl, by rw [hnone]; decide, ?_⟩
    have htotal : q.total [] = 0 := rfl
    rw [htotal, Nat.add_zero]
    split <;> omega
  | cons guid rest ih =>
    obtain ⟨data, hdata, hroles⟩ := exists_data_of_isSome (hqueued guid mem_cons_self)
    have hsize := hsmall guid mem_cons_self
    rw [total_cons]
    have hgoes : tally.numLfgGroups < 1 ∧ tally.numPlayers.toUInt32 ≤ maxGroupSize ↔
        tally.numPlayers.toNat ≤ maxGroupSize.toNat := by
      rw [hnone, UInt32.le_iff_toNat_le, UInt8.toNat_toUInt32]
      exact and_iff_right (by decide)
    rw [countPlayers]
    by_cases hle : tally.numPlayers.toNat ≤ maxGroupSize.toNat
    · simp only [if_pos (hgoes.mpr hle), hdata]
      rw [hroles] at hsize
      have hadd : (UInt8.ofNat (tally.numPlayers.toNat + data.roles.size)).toNat =
          tally.numPlayers.toNat + data.roles.size := by
        apply UInt8.toNat_ofNat_of_lt
        show _ < 256
        omega
      cases rest with
      | nil =>
        have htotal : q.total [] = 0 := rfl
        rw [htotal, hroles, Nat.add_zero]
        split
        · refine ⟨_, rfl, ?_, ?_⟩
          · show tally.numLfgGroups + 1 ≤ 1
            rw [hnone]
            decide
          · rw [hadd]
            split <;> omega
        · refine ⟨_, rfl, ?_, ?_⟩
          · show tally.numLfgGroups ≤ 1
            rw [hnone]
            decide
          · rw [hadd]
            split <;> omega
      | cons next rest =>
        have hgroup := hlast guid (by rw [dropLast_cons_cons]; exact mem_cons_self)
        rw [hgroup, if_neg Bool.false_ne_true]
        have hnone' : ({ tally with
            proposalGroups := data.roles.keys.foldl (fun groups player => groups.insert player
              (if ObjectGuid.getHigh guid = 0x1F5 then guid else 0)) tally.proposalGroups
            numPlayers := UInt8.ofNat (tally.numPlayers.toNat + data.roles.size) } :
              Tally).numLfgGroups = 0 := hnone
        obtain ⟨counted, hcount, hgroups, hplayers⟩ := ih _
          (fun g hg => hqueued g (mem_cons_of_mem _ hg))
          (fun g hg => hsmall g (mem_cons_of_mem _ hg))
          (fun g hg => hlast g (by rw [dropLast_cons_cons]; exact mem_cons_of_mem _ hg))
          hnone'
        rw [hadd, Nat.add_assoc] at hplayers
        rw [hroles]
        exact ⟨counted, hcount, hgroups, hplayers⟩
    · rw [if_neg (fun h => hle (hgoes.mp h))]
      refine ⟨tally, rfl, by rw [hnone]; decide, ?_⟩
      rw [if_neg (by omega)]
      exact Nat.lt_of_not_le hle

/-! ### Ignored players -/

/-- No two of the players ignore each other. -/
def Peaceful (mgr : LFGMgr) (players : List (ObjectGuid × UInt8)) : Prop :=
  players.Pairwise fun x y => mgr.hasIgnore x.1 y.1 = false

theorem Peaceful.perm {players players' : List (ObjectGuid × UInt8)} (h : Peaceful mgr players)
    (hperm : players.Perm players') : Peaceful mgr players' :=
  (hperm.pairwise_iff fun {x y} hxy => mgr.hasIgnore_comm x.1 y.1 ▸ hxy).mp h

/-- A player who is not there yet joins unless somebody there ignores or is ignored. -/
theorem mergePlayer_eq (mgr : LFGMgr) {roles : LfgRolesMap} {x : ObjectGuid × UInt8}
    (hfresh : x.1 ∉ roles) :
    (mergePlayer mgr roles x = roles.insert x.1 x.2 ∧
        ∀ y ∈ roles.toList, mgr.hasIgnore x.1 y.1 = false) ∨
      (mergePlayer mgr roles x = roles ∧ ¬ ∀ y ∈ roles.toList, mgr.hasIgnore x.1 y.1 = false) := by
  have hne {y : ObjectGuid × UInt8} (hy : y ∈ roles.toList) : x.1 ≠ y.1 := by
    intro heq
    apply hfresh
    rw [heq, ExtTreeMap.mem_iff_isSome_getElem?, mem_toList_iff.mp hy]
    rfl
  rw [mergePlayer]
  split
  · next hany =>
    obtain ⟨y, hy, hignore⟩ := any_eq_true.mp hany
    rw [Bool.and_eq_true] at hignore
    refine .inr ⟨rfl, fun hall => ?_⟩
    rw [hall y hy] at hignore
    exact Bool.false_ne_true hignore.2
  · next hnone =>
    refine .inl ⟨rfl, fun y hy => ?_⟩
    rw [← Bool.not_eq_true]
    intro hignore
    apply hnone
    apply any_eq_true.mpr
    exact ⟨y, hy, by rw [Bool.and_eq_true]; exact ⟨decide_eq_true (hne hy), hignore⟩⟩

/-- All players join exactly when no two of them, and nobody there before, ignore each other. -/
theorem foldl_mergePlayer (mgr : LFGMgr) {roles : LfgRolesMap}
    {more : List (ObjectGuid × UInt8)} (hnodup : (more.map Prod.fst).Nodup) (hfresh : ∀ x ∈ more, x.1 ∉ roles) :
    (more.foldl (mergePlayer mgr) roles).size ≤ roles.size + more.length ∧
      ((more.foldl (mergePlayer mgr) roles).size = roles.size + more.length ↔
        Peaceful mgr more ∧ ∀ x ∈ more, ∀ y ∈ roles.toList, mgr.hasIgnore x.1 y.1 = false) ∧
      ((more.foldl (mergePlayer mgr) roles).size = roles.size + more.length →
        (more.foldl (mergePlayer mgr) roles).toList.Perm (roles.toList ++ more)) := by
  induction more generalizing roles with
  | nil =>
    refine ⟨Nat.le_refl _, ⟨fun _ => ⟨List.Pairwise.nil, ?_⟩, fun _ => rfl⟩, fun _ => ?_⟩
    · intro x hx
      exact (not_mem_nil hx).elim
    · rw [append_nil]
      exact List.Perm.refl _
  | cons x more ih =>
    rw [map_cons] at hnodup
    obtain ⟨hx, hnodup⟩ := nodup_cons.mp hnodup
    obtain ⟨hxfresh, hfresh⟩ := forall_mem_cons.mp hfresh
    rw [foldl_cons, length_cons]
    rcases mergePlayer_eq mgr hxfresh with ⟨hmerge, hpeace⟩ | ⟨hmerge, hignore⟩
    · have hnext : ∀ y ∈ more, y.1 ∉ roles.insert x.1 x.2 := by
        intro y hy hmem
        rw [ExtTreeMap.mem_insert] at hmem
        rcases hmem with heq | hmem
        · exact hx (LawfulEqOrd.eq_of_compare heq ▸ mem_map_of_mem hy)
        · exact hfresh y hy hmem
      have hlist := perm_toList_insert_of_notMem (v := x.2) hxfresh
      obtain ⟨hle, hiff, hperm⟩ := ih hnodup hnext
      rw [size_insert_of_notMem hxfresh] at hle hiff hperm
      have hadd : roles.size + 1 + more.length = roles.size + (more.length + 1) := by omega
      rw [hadd] at hle hiff hperm
      rw [hmerge]
      refine ⟨hle, hiff.trans ?_, fun hsize => ?_⟩
      · rw [Peaceful, Peaceful, pairwise_cons, forall_mem_cons]
        simp only [hlist.mem_iff, forall_mem_cons]
        constructor
        · rintro ⟨hpair, hall⟩
          refine ⟨⟨fun y hy => ?_, hpair⟩, hpeace, fun y hy => (hall y hy).2⟩
          rw [mgr.hasIgnore_comm]
          exact (hall y hy).1
        · rintro ⟨⟨hhead, hpair⟩, _, hall⟩
          refine ⟨hpair, fun y hy => ⟨?_, hall y hy⟩⟩
          rw [mgr.hasIgnore_comm]
          exact hhead y hy
      · apply (hperm hsize).trans
        exact (hlist.append_right more).trans perm_middle.symm
    · obtain ⟨hle, _, _⟩ := ih hnodup hfresh
      rw [hmerge]
      have hlt : (more.foldl (mergePlayer mgr) roles).size ≠ roles.size + (more.length + 1) := by
        omega
      refine ⟨by omega, ⟨fun heq => absurd heq hlt, ?_⟩, fun heq => absurd heq hlt⟩
      rintro ⟨_, hall⟩
      exact absurd (hall x mem_cons_self) hignore

theorem mergeRoles_eq (check : List ObjectGuid) :
    q.mergeRoles mgr check = (q.players check).foldl (mergePlayer mgr) ∅ := by
  rw [mergeRoles, players, foldl_flatMap]

end LFGQueue

end TrinityCore.DungeonFinding
