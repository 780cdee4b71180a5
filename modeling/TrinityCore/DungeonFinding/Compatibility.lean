import TrinityCore.DungeonFinding.CombinationChecks

/-!
# The combinations that fit together

What the checks of `CheckCompatibility` amount to for a list whose only group of the manager
comes last: the loop that counts the players stops at the first of them.
-/

namespace TrinityCore.DungeonFinding

open List

open Std TreeMapLists

namespace LFGQueue

variable {store : LfgDungeonStore} {mgr : LFGMgr} {q q' : LFGQueue} {dungeon : LFGDungeonData}
  {check check' : List ObjectGuid}

/-- A list of queued entries of different players, whose dungeons all need the same roles. -/
structure Queued (store : LfgDungeonStore) (q : LFGQueue) (dungeon : LFGDungeonData)
    (check : List ObjectGuid) : Prop where
  nodup : check.Nodup
  queued : ∀ guid ∈ check, (q.entries guid).isSome
  players : ∀ guid ∈ check, 0 < (q.rolesOf guid).size
  disjoint : check.Pairwise fun guid other =>
    ∀ player ∈ (q.rolesOf guid).keys, player ∉ q.rolesOf other
  same : ∀ guid ∈ check, ∀ id ∈ q.dungeonsOf guid, ∀ data, store id = some data → data = dungeon

/-- No entry is so large that the counter of the players, a byte, could overflow; and a group of
the manager is the last one. -/
structure Listed (store : LfgDungeonStore) (mgr : LFGMgr) (q : LFGQueue)
    (dungeon : LFGDungeonData) (check : List ObjectGuid) : Prop extends
    Queued store q dungeon check where
  small : ∀ guid ∈ check, (q.rolesOf guid).size + dungeon.getMaxGroupSize.toNat < 256
  groupLast : ∀ guid ∈ check.dropLast, mgr.isLfgGroup guid = false

/-- The entries have a dungeon in common, their players are not too many, and when there are
several entries no two players ignore each other and all can be given roles. -/
structure Fits (store : LfgDungeonStore) (mgr : LFGMgr) (q : LFGQueue) (dungeon : LFGDungeonData)
    (check : List ObjectGuid) : Prop where
  common : ∃ id, store id = some dungeon ∧ ∀ guid ∈ check, id ∈ q.dungeonsOf guid
  size : q.total check ≤ dungeon.getMaxGroupSize.toNat
  peaceful : 1 < check.length → Peaceful mgr (q.players check)
  roles : 1 < check.length → Assignable dungeon (q.players check)

/-! ### Orders and parts -/

theorem perm_players (hperm : check.Perm check') : (q.players check).Perm (q.players check') :=
  hperm.flatMap_right _

theorem total_perm (hperm : check.Perm check') : q.total check = q.total check' :=
  (perm_players hperm).length_eq

theorem Fits.perm (h : Fits store mgr q dungeon check) (hperm : check.Perm check') :
    Fits store mgr q dungeon check' where
  common := by
    obtain ⟨id, hid, hall⟩ := h.common
    exact ⟨id, hid, fun guid hguid => hall guid (hperm.mem_iff.mpr hguid)⟩
  size := total_perm hperm ▸ h.size
  peaceful hlen := (h.peaceful (hperm.length_eq ▸ hlen)).perm (perm_players hperm)
  roles hlen := (h.roles (hperm.length_eq ▸ hlen)).perm (perm_players hperm)

theorem Fits.tail {guid : ObjectGuid} {rest : List ObjectGuid}
    (h : Fits store mgr q dungeon (guid :: rest)) : Fits store mgr q dungeon rest := by
  have hsub : (q.players rest).Sublist (q.players (guid :: rest)) := by
    rw [players, players, flatMap_cons]
    exact sublist_append_right _ _
  constructor
  · obtain ⟨id, hid, hall⟩ := h.common
    exact ⟨id, hid, fun other hother => hall other (mem_cons_of_mem _ hother)⟩
  · exact Nat.le_trans hsub.length_le h.size
  · intro hlen
    exact (h.peaceful (Nat.lt_succ_of_lt hlen)).sublist hsub
  · intro hlen
    exact (h.roles (Nat.lt_succ_of_lt hlen)).sublist hsub

theorem Listed.tail {guid : ObjectGuid} {rest : List ObjectGuid}
    (h : Listed store mgr q dungeon (guid :: rest)) : Listed store mgr q dungeon rest where
  nodup := (nodup_cons.mp h.nodup).2
  queued other hother := h.queued other (mem_cons_of_mem _ hother)
  players other hother := h.players other (mem_cons_of_mem _ hother)
  disjoint := (pairwise_cons.mp h.disjoint).2
  same other hother := h.same other (mem_cons_of_mem _ hother)
  small other hother := h.small other (mem_cons_of_mem _ hother)
  groupLast other hother := by
    apply h.groupLast
    cases rest with
    | nil => cases hother
    | cons next rest =>
      rw [dropLast_cons_cons]
      exact mem_cons_of_mem _ hother

section

variable (h : Listed store mgr q dungeon check)
include h

theorem Listed.perm (hperm : check.Perm check')
    (hlast : ∀ guid ∈ check'.dropLast, mgr.isLfgGroup guid = false) :
    Listed store mgr q dungeon check' where
  nodup := hperm.nodup_iff.mp h.nodup
  queued guid hguid := h.queued guid (hperm.mem_iff.mpr hguid)
  players guid hguid := h.players guid (hperm.mem_iff.mpr hguid)
  disjoint := by
    apply (hperm.pairwise_iff _).mp h.disjoint
    intro guid other hdisjoint player hmem hmem'
    exact hdisjoint player (ExtTreeMap.mem_keys.mpr hmem') (ExtTreeMap.mem_keys.mp hmem)
  same guid hguid := h.same guid (hperm.mem_iff.mpr hguid)
  small guid hguid := h.small guid (hperm.mem_iff.mpr hguid)
  groupLast := hlast

theorem Listed.countP_isLfgGroup_le : check.countP mgr.isLfgGroup ≤ 1 := by
  induction check with
  | nil => exact Nat.zero_le _
  | cons guid rest ih =>
    cases rest with
    | nil => exact countP_le_length
    | cons next rest =>
      have hfirst := h.groupLast guid (by rw [dropLast_cons_cons]; exact mem_cons_self)
      rw [countP_cons_of_neg (by rw [hfirst]; exact Bool.false_ne_true)]
      exact ih h.tail

theorem Listed.congr (heq : q'.entries = q.entries) : Listed store mgr q' dungeon check where
  nodup := h.nodup
  queued := heq ▸ h.queued
  players := rolesOf_congr heq ▸ h.players
  disjoint := rolesOf_congr heq ▸ h.disjoint
  same := dungeonsOf_congr heq ▸ h.same
  small := rolesOf_congr heq ▸ h.small
  groupLast := h.groupLast

end

theorem Fits.congr (h : Fits store mgr q dungeon check) (heq : q'.entries = q.entries) :
    Fits store mgr q' dungeon check where
  common := dungeonsOf_congr heq ▸ h.common
  size := total_congr heq ▸ h.size
  peaceful := players_congr heq ▸ h.peaceful
  roles := players_congr heq ▸ h.roles

/-- No player is in two entries. -/
theorem Listed.nodup_players (h : Listed store mgr q dungeon check) :
    ((q.players check).map Prod.fst).Nodup := by
  rw [LFGQueue.players, map_flatMap, nodup_flatMap]
  constructor
  · exact fun guid _ => nodup_keys _
  · apply h.disjoint.imp
    intro guid other hdisjoint player hmem hmem'
    obtain ⟨x, hx, rfl⟩ := mem_map.mp hmem
    obtain ⟨y, hy, heq⟩ := mem_map.mp hmem'
    have hguid : x.1 ∈ q.rolesOf guid := by
      rw [ExtTreeMap.mem_iff_isSome_getElem?, mem_toList_iff.mp hx]
      rfl
    apply hdisjoint _ (ExtTreeMap.mem_keys.mpr hguid)
    rw [← heq, ExtTreeMap.mem_iff_isSome_getElem?, mem_toList_iff.mp hy]
    rfl

/-- Every entry has a player. -/
theorem Listed.length_le_total (h : Listed store mgr q dungeon check) :
    check.length ≤ q.total check := by
  induction check with
  | nil => exact Nat.zero_le _
  | cons guid rest ih =>
    have hone := h.players guid mem_cons_self
    have hrest := ih h.tail
    rw [total_cons, length_cons]
    omega

/-! ### The checks -/

/-- What the checks say about a list. -/
def Assessed (store : LfgDungeonStore) (mgr : LFGMgr) (q : LFGQueue) (dungeon : LFGDungeonData)
    (check : List ObjectGuid) : Except Rejection Candidate → Prop
  | .ok c => Fits store mgr q dungeon check ∧ c.dungeon = dungeon ∧
      c.tally.numPlayers.toNat = q.total check
  | .error (.notQueued _) => False
  | .error (.uncached compatibles) | .error (.cached compatibles) =>
    ¬ Fits store mgr q dungeon check ∧ isIncompatible compatibles = true

section

variable (h : Listed store mgr q dungeon check)
include h

/-- Among several entries, nobody is left out when no two players ignore each other. -/
theorem Listed.mergeRoles_size :
    (q.mergeRoles mgr check).size ≤ q.total check ∧
      ((q.mergeRoles mgr check).size = q.total check ↔ Peaceful mgr (q.players check)) ∧
      ((q.mergeRoles mgr check).size = q.total check →
        (q.mergeRoles mgr check).toList.Perm (q.players check)) := by
  have hfresh : ∀ x ∈ q.players check, x.1 ∉ (∅ : LfgRolesMap) :=
    fun _ _ => ExtTreeMap.not_mem_empty
  obtain ⟨hle, hiff, hperm⟩ := foldl_mergePlayer mgr h.nodup_players hfresh
  have hnil : (∅ : LfgRolesMap).toList = [] := rfl
  have hzero : (∅ : LfgRolesMap).size = 0 := rfl
  rw [← mergeRoles_eq, hzero, Nat.zero_add] at hle hiff hperm
  rw [hnil] at hiff hperm
  refine ⟨hle, hiff.trans ?_, hperm⟩
  exact and_iff_left fun x _ y hy => (not_mem_nil hy).elim

/-- The difference of the two counts is a byte, and so are both counts. -/
theorem Listed.sub_size_ne_zero_iff {numPlayers : UInt8}
    (hplayers : numPlayers.toNat = q.total check) :
    numPlayers - UInt8.ofNat (q.mergeRoles mgr check).size ≠ 0 ↔
      ¬ Peaceful mgr (q.players check) := by
  obtain ⟨hle, hiff, _⟩ := h.mergeRoles_size
  have hlt := numPlayers.toNat_lt
  have hmerged : (UInt8.ofNat (q.mergeRoles mgr check).size).toNat =
      (q.mergeRoles mgr check).size := by
    apply UInt8.toNat_ofNat_of_lt
    show _ < 256
    omega
  rw [← hiff, Ne, UInt8.sub_eq_iff_eq_add, UInt8.zero_add, ← UInt8.toNat_inj, hplayers, hmerged,
    eq_comm]

/-- The players who joined can be given roles exactly when all players can. -/
theorem Listed.isSome_checkGroupRoles_iff
    (hne : check ≠ []) (hpeace : Peaceful mgr (q.players check)) (hsmall : q.total check < 256) :
    (checkGroupRoles dungeon (q.mergeRoles mgr check)).isSome ↔
      Assignable dungeon (q.players check) := by
  obtain ⟨_, hiff, hperm⟩ := h.mergeRoles_size
  have hsize := hiff.mpr hpeace
  have hlen := length_pos_of_ne_nil hne
  have htotal := h.length_le_total
  rw [DungeonFinding.isSome_checkGroupRoles_iff _ (hsize ▸ hsmall)]
  · exact assignable_perm_iff (hperm hsize)
  · rw [ExtTreeMap.isEmpty_eq_size_beq_zero, beq_iff_eq]
    omega

theorem Listed.assessed (hne : check ≠ [])
    (draw : Nat → Nat) :
    Assessed store mgr q dungeon check (q.assess store mgr draw check) := by
  obtain ⟨front, rest, rfl⟩ := exists_cons_of_ne_nil hne
  simp only [assess]
  cases hdraw : drawDungeon store draw (q.commonDungeons (front :: rest)).size
      (q.commonDungeons (front :: rest)) with
  | none =>
    refine ⟨fun hfits => ?_, rfl⟩
    obtain ⟨id, hid, hall⟩ := hfits.common
    have hnone := drawDungeon_eq_none (Nat.le_refl _) hdraw (mem_commonDungeons_iff.mpr hall)
    rw [hid] at hnone
    cases hnone
  | some drawn =>
    obtain ⟨id, data⟩ := drawn
    obtain ⟨hmem, hstore⟩ := drawDungeon_eq_some hdraw
    rw [mem_commonDungeons_iff] at hmem
    have hdata : data = dungeon :=
      h.same front mem_cons_self id (hmem front mem_cons_self) data hstore
    subst hdata
    have hlen := h.length_le_total
    simp only []
    by_cases hsize : data.getMaxGroupSize.toNat < (front :: rest).length
    · rw [if_pos hsize]
      refine ⟨fun hfits => ?_, rfl⟩
      have htotal := hfits.size
      omega
    · rw [if_neg hsize]
      obtain ⟨tally, hcount, hgroups, hplayers⟩ :=
        countPlayers_eq {} h.queued h.small h.groupLast rfl
      have hzero : (({} : Tally).numPlayers).toNat = 0 := rfl
      rw [hzero, Nat.zero_add] at hplayers
      have hone : ¬ 1 < tally.numLfgGroups := UInt8.not_lt.mpr hgroups
      have htoo : data.getMaxGroupSize < tally.numPlayers.toUInt32 ↔
          data.getMaxGroupSize.toNat < tally.numPlayers.toNat := by
        rw [UInt32.lt_iff_toNat_lt, UInt8.toNat_toUInt32]
      simp only [hcount, if_neg hone]
      by_cases htotal : q.total (front :: rest) ≤ data.getMaxGroupSize.toNat
      · rw [if_pos htotal] at hplayers
        rw [if_neg (fun hlt => Nat.not_lt.mpr htotal (hplayers ▸ htoo.mp hlt))]
        have hcommon := (⟨id, hstore, hmem⟩ : ∃ id, store id = some data ∧
          ∀ guid ∈ front :: rest, id ∈ q.dungeonsOf guid)
        by_cases hseveral : 1 < (front :: rest).length
        · rw [if_pos hseveral]
          have hpeace := h.sub_size_ne_zero_iff hplayers
          by_cases hignores : tally.numPlayers - UInt8.ofNat (q.mergeRoles mgr
              (front :: rest)).size ≠ 0
          · rw [if_pos hignores]
            exact ⟨fun hfits => hpeace.mp hignores (hfits.peaceful hseveral), rfl⟩
          · rw [if_neg hignores]
            have hpeaceful := not_not.mp (fun hnot => hignores (hpeace.mpr hnot))
            have hroles := h.isSome_checkGroupRoles_iff hne hpeaceful
              (hplayers ▸ tally.numPlayers.toNat_lt)
            cases hcheck : checkGroupRoles data (q.mergeRoles mgr (front :: rest)) with
            | none =>
              rw [hcheck] at hroles
              refine ⟨fun hfits => ?_, rfl⟩
              exact Bool.false_ne_true (hroles.mpr (hfits.roles hseveral))
            | some assigned =>
              rw [hcheck] at hroles
              exact ⟨⟨hcommon, htotal, fun _ => hpeaceful, fun _ => hroles.mp rfl⟩, rfl, hplayers⟩
        · rw [if_neg hseveral]
          refine ⟨⟨hcommon, htotal, ?_, ?_⟩, rfl, hplayers⟩
          · exact fun hlt => absurd hlt hseveral
          · exact fun hlt => absurd hlt hseveral
      · rw [if_neg htotal] at hplayers
        rw [if_pos (htoo.mpr hplayers)]
        exact ⟨fun hfits => htotal hfits.size, rfl⟩

end

end LFGQueue

end TrinityCore.DungeonFinding
