import TrinityCore.DungeonFinding.Compatibility

/-!
# The verdict on a combination

`CheckCompatibility` judges the entries of a list, whatever their order, as long as a group of
the manager comes last.
-/

namespace TrinityCore.DungeonFinding

open List

open Std

namespace LFGQueue

/-- What the verdicts amount to. -/
inductive Outcome
  | incompatible
  | lessPlayers
  | full
  deriving DecidableEq, Repr

/-- The outcome of a verdict; a match in bad states is a match. -/
def outcomeOf (compatibles : LfgCompatibility) : Outcome :=
  if isIncompatible compatibles then .incompatible
  else if compatibles = .compatiblesWithLessPlayers then .lessPlayers
  else .full

variable {store : LfgDungeonStore} {mgr : LFGMgr} {q q' : LFGQueue} {dungeon : LFGDungeonData}
  {check check' : List ObjectGuid}

/-! ### What a check leaves alone -/

/-- The best combination of an entry changes neither its dungeons nor its roles. -/
theorem dungeons_roles_updateBestCompatible (data : LfgQueueData) (key : String)
    (roles : LfgRolesMap) :
    (data.updateBestCompatible store key roles).dungeons = data.dungeons ∧
      (data.updateBestCompatible store key roles).roles = data.roles := by
  have hfold (more : List (ObjectGuid × UInt8)) (data : LfgQueueData) :
      (more.foldl (fun data x => data.takeRole x.2) data).dungeons = data.dungeons ∧
        (more.foldl (fun data x => data.takeRole x.2) data).roles = data.roles := by
    induction more generalizing data with
    | nil => exact ⟨rfl, rfl⟩
    | cons x more ih =>
      rw [foldl_cons, (ih _).1, (ih _).2, LfgQueueData.takeRole]
      split
      · exact ⟨rfl, rfl⟩
      · split <;> exact ⟨rfl, rfl⟩
  rw [LfgQueueData.updateBestCompatible]
  split
  · exact ⟨rfl, rfl⟩
  · rw [(hfold _ _).1, (hfold _ _).2, LfgQueueData.initializeGroupSetup]
    split <;> exact ⟨rfl, rfl⟩

theorem entries_modify (guid : ObjectGuid) (f : LfgQueueData → LfgQueueData)
    (h : ∀ data, (f data).dungeons = data.dungeons ∧ (f data).roles = data.roles) :
    ({ q with queueDataStore := q.queueDataStore.modify guid f } : LFGQueue).entries =
      q.entries := by
  funext other
  simp only [entries, ExtTreeMap.getElem?_modify]
  split
  · next heq =>
    rw [LawfulEqOrd.eq_of_compare heq, Option.map_map]
    apply congrArg (Option.map · _)
    funext data
    rw [Function.comp_apply, (h data).1, (h data).2]
  · rfl

theorem entries_updateBestCompatibles (key : String) (roles : LfgRolesMap)
    (check : List ObjectGuid) :
    (q.updateBestCompatibles store key roles check).entries = q.entries := by
  rw [updateBestCompatibles]
  induction check generalizing q with
  | nil => rfl
  | cons guid rest ih =>
    rw [foldl_cons, ih]
    exact entries_modify guid _ fun data => dungeons_roles_updateBestCompatible data key roles

theorem entries_unqueue (check : List ObjectGuid) :
    (check.foldl (fun q guid => (q.removeFromNewQueue guid).removeFromCurrentQueue guid)
      q).entries = q.entries := by
  induction check generalizing q with
  | nil => rfl
  | cons guid rest ih => exact ih

theorem foldl_touch (gameTime : Int) (hqueued : ∀ guid ∈ check, (q.entries guid).isSome) :
    check.foldl (fun q guid => q.touch gameTime guid) q = q := by
  induction check with
  | nil => rfl
  | cons guid rest ih =>
    obtain ⟨data, hdata, _⟩ := exists_data_of_isSome (hqueued guid mem_cons_self)
    have htouch : q.touch gameTime guid = q := by simp only [touch, hdata]
    rw [foldl_cons, htouch, ih fun g hg => hqueued g (mem_cons_of_mem _ hg)]

/-! ### The verdict -/

/-- The outcome for the entries of a list. -/
def HasOutcome (store : LfgDungeonStore) (mgr : LFGMgr) (q : LFGQueue)
    (dungeon : LFGDungeonData) (check : List ObjectGuid) : Outcome → Prop
  | .incompatible => ¬ Fits store mgr q dungeon check
  | .lessPlayers => Fits store mgr q dungeon check ∧
      q.total check ≠ dungeon.getMaxGroupSize.toNat
  | .full => Fits store mgr q dungeon check ∧ q.total check = dungeon.getMaxGroupSize.toNat

theorem HasOutcome.unique {o o' : Outcome} (h : HasOutcome store mgr q dungeon check o)
    (h' : HasOutcome store mgr q dungeon check o') : o = o' := by
  cases o <;> cases o' <;> simp only [HasOutcome] at h h' <;> first | rfl | tauto

theorem HasOutcome.perm {o : Outcome} (h : HasOutcome store mgr q dungeon check o)
    (hperm : check.Perm check') : HasOutcome store mgr q dungeon check' o := by
  cases o with
  | incompatible => exact fun hfits => h (hfits.perm hperm.symm)
  | lessPlayers => exact ⟨h.1.perm hperm, total_perm hperm ▸ h.2⟩
  | full => exact ⟨h.1.perm hperm, total_perm hperm ▸ h.2⟩

/-- What a check makes of a list: the entries stay as they are, and a full group is a match when
all are queued. -/
structure Judged (store : LfgDungeonStore) (mgr : LFGMgr) (q : LFGQueue)
    (dungeon : LFGDungeonData) (check : List ObjectGuid) (result : LfgCompatibility × LFGQueue) :
    Prop where
  entries : result.2.entries = q.entries
  outcome : HasOutcome store mgr q dungeon check (outcomeOf result.1)
  match_of_full : outcomeOf result.1 = .full → mgr.allQueued check = true →
    result.1 = .compatiblesMatch

theorem Judged.of_isIncompatible {result : LfgCompatibility × LFGQueue}
    (hentries : result.2.entries = q.entries) (hincompatible : isIncompatible result.1 = true)
    (hfits : ¬ Fits store mgr q dungeon check) : Judged store mgr q dungeon check result := by
  have houtcome : outcomeOf result.1 = .incompatible := if_pos hincompatible
  refine ⟨hentries, by rwa [houtcome], fun hfull => ?_⟩
  rw [houtcome] at hfull
  cases hfull

theorem judged_conclude (lead : Nat → Bool) {c : Candidate}
    (hfits : Fits store mgr q dungeon check) (hdungeon : c.dungeon = dungeon)
    (hplayers : c.tally.numPlayers.toNat = q.total check) :
    Judged store mgr q dungeon check (q.conclude store mgr lead check c) := by
  have henough : c.tally.numPlayers.toUInt32 ≠ c.dungeon.getMaxGroupSize ↔
      q.total check ≠ dungeon.getMaxGroupSize.toNat := by
    rw [Ne, ← UInt32.toNat_inj, UInt8.toNat_toUInt32, hdungeon, hplayers]
  rw [conclude]
  by_cases hless : c.tally.numPlayers.toUInt32 ≠ c.dungeon.getMaxGroupSize
  · simp only [if_pos hless]
    constructor
    · exact entries_updateBestCompatibles _ _ _
    · exact ⟨hfits, henough.mp hless⟩
    · intro hfull
      cases hfull
  · have hfull := not_not.mp (fun hne => hless (henough.mpr hne))
    simp only [if_neg hless]
    by_cases hqueued : mgr.allQueued check
    · rw [hqueued, if_neg (by decide)]
      constructor
      · exact entries_unqueue check
      · exact ⟨hfits, hfull⟩
      · exact fun _ _ => rfl
    · have hnot : (!mgr.allQueued check) = true := by
        rw [Bool.not_eq_true']
        exact Bool.eq_false_iff.mpr hqueued
      rw [if_pos hnot]
      constructor
      · rfl
      · exact ⟨hfits, hfull⟩
      · exact fun _ hall => absurd hall hqueued

theorem Listed.judged (h : Listed store mgr q dungeon check) (hne : check ≠ []) (draws : Draws) :
    Judged store mgr q dungeon check (q.judge store mgr draws check) := by
  simp only [judge, foldl_touch mgr.gameTime h.queued]
  have hassessed := h.assessed hne (draws.dungeon check.length)
  cases hresult : q.assess store mgr (draws.dungeon check.length) check with
  | error rejection =>
    rw [hresult] at hassessed
    cases rejection with
    | notQueued guid => exact hassessed.elim
    | uncached compatibles => exact Judged.of_isIncompatible rfl hassessed.2 hassessed.1
    | cached compatibles => exact Judged.of_isIncompatible rfl hassessed.2 hassessed.1
  | ok c =>
    rw [hresult] at hassessed
    exact judged_conclude _ hassessed.1 hassessed.2.1 hassessed.2.2

theorem Judged.congr {result : LfgCompatibility × LFGQueue}
    (h : Judged store mgr q' dungeon check result) (heq : q'.entries = q.entries) :
    Judged store mgr q dungeon check result := by
  have hfits : Fits store mgr q' dungeon check ↔ Fits store mgr q dungeon check :=
    ⟨fun hf => hf.congr heq.symm, fun hf => hf.congr heq⟩
  have houtcome := h.outcome
  refine ⟨h.entries.trans heq, ?_, h.match_of_full⟩
  cases ho : outcomeOf result.1 <;> rw [ho] at houtcome <;>
    simpa only [HasOutcome, hfits, total_congr heq] using houtcome

/-- `CheckCompatibility` judges the entries of a list. -/
theorem Listed.judged_checkCompatibility (h : Listed store mgr q dungeon check)
    (hne : check ≠ []) (draws : Draws) :
    Judged store mgr q dungeon check (checkCompatibility store mgr draws check q) := by
  induction check with
  | nil => exact absurd rfl hne
  | cons front rest ih =>
    rw [checkCompatibility]
    split
    · next hlen =>
      have hrest : rest ≠ [] := by
        rintro rfl
        exact absurd hlen (by decide)
      have hchild := ih h.tail hrest
      simp only []
      split
      · next hincompatible =>
        apply Judged.of_isIncompatible
        · exact hchild.entries
        · exact hincompatible
        · have houtcome := hchild.outcome
          have hverdict : outcomeOf (checkCompatibility store mgr draws rest q).1 =
              .incompatible := if_pos hincompatible
          rw [hverdict] at houtcome
          exact fun hfits => houtcome hfits.tail
      · exact ((h.congr hchild.entries).judged hne draws).congr hchild.entries
    · exact h.judged hne draws

/-- `CheckCompatibility` judges the set of the entries and not their order: for a list of queued
entries with players of their own, whose dungeons all need the same roles, and any other order
that has the only group of the manager last, both orders are incompatible, both are compatible
with less players, or both are full. A full list has as many players as the dungeon takes; when
there are several entries, no two players ignore each other, and all can be given roles. A list
like that with a common dungeon is a match once all are queued. -/
theorem checkCompatibility_judges_sets (hperm : check.Perm check')
    (h : Listed store mgr q dungeon check)
    (hlast : ∀ guid ∈ check'.dropLast, mgr.isLfgGroup guid = false) (draws draws' : Draws) :
    outcomeOf (checkCompatibility store mgr draws check q).1 =
        outcomeOf (checkCompatibility store mgr draws' check' q).1 ∧
      (outcomeOf (checkCompatibility store mgr draws check q).1 = .full →
        check.countP mgr.isLfgGroup ≤ 1 ∧
          q.total check = dungeon.getMaxGroupSize.toNat ∧
          (1 < check.length →
            Peaceful mgr (q.players check) ∧ Assignable dungeon (q.players check))) ∧
      ((∃ id, store id = some dungeon ∧ ∀ guid ∈ check, id ∈ q.dungeonsOf guid) →
        q.total check = dungeon.getMaxGroupSize.toNat →
        (1 < check.length →
          Peaceful mgr (q.players check) ∧ Assignable dungeon (q.players check)) →
        mgr.allQueued check = true →
        (checkCompatibility store mgr draws check q).1 = .compatiblesMatch) := by
  by_cases hne : check = []
  · subst hne
    rw [nil_perm.mp hperm]
    refine ⟨rfl, fun hfull => ?_, fun _ _ _ hqueued => ?_⟩
    · cases hfull
    · exact absurd hqueued Bool.false_ne_true
  · have hne' : check' ≠ [] := fun hnil => hne (perm_nil.mp (hnil ▸ hperm))
    have hjudged := h.judged_checkCompatibility hne draws
    have hjudged' := (h.perm hperm hlast).judged_checkCompatibility hne' draws'
    refine ⟨(hjudged.outcome.perm hperm).unique hjudged'.outcome, fun hfull => ?_, ?_⟩
    · have houtcome := hjudged.outcome
      rw [hfull] at houtcome
      obtain ⟨hfits, htotal⟩ := houtcome
      exact ⟨h.countP_isLfgGroup_le, htotal, fun hlen => ⟨hfits.peaceful hlen, hfits.roles hlen⟩⟩
    · intro hcommon htotal hseveral hqueued
      have hfits : Fits store mgr q dungeon check := by
        constructor
        · exact hcommon
        · exact htotal.le
        · exact fun hlen => (hseveral hlen).1
        · exact fun hlen => (hseveral hlen).2
      have hfull : HasOutcome store mgr q dungeon check .full := ⟨hfits, htotal⟩
      exact hjudged.match_of_full (hjudged.outcome.unique hfull) hqueued

/-! ### Concrete queues -/

/-- A dungeon for a tank, a healer and three damage dealers. -/
def fivePlayers : LFGDungeonData := ⟨1, 1, 3⟩

/-- Everybody is connected and queued, and all groups are groups of the manager. -/
def queuedManager (socialIgnore : ObjectGuid → ObjectGuid → Bool) : LFGMgr where
  getState _ := .queued
  getOldState _ := .dungeon
  connected _ := true
  socialIgnore := socialIgnore
  gameTime := 0

/-- Some entries, queued for one dungeon. -/
def queueOf (dungeon : LFGDungeonData) (entries : List (ObjectGuid × List (ObjectGuid × UInt8))) :
    LFGQueue :=
  entries.foldl (fun q x => q.addQueueData (fun _ => some dungeon) x.1 0 {1}
    (x.2.foldl (fun roles y => roles.insert y.1 y.2) ∅)) {}

/-- The first dungeon is drawn, and nobody takes the lead. -/
def firstDraws : Draws := ⟨fun _ _ => 0, fun _ _ => false⟩

/-- A group of three and two players. -/
def groupAndPlayers : LFGQueue := queueOf fivePlayers
  [(0x1F50000000000001, [(1, 0x02), (2, 0x04), (3, 0x08)]), (4, [(4, 0x08)]), (5, [(5, 0x08)])]

theorem queued_groupAndPlayers : Queued (fun _ => some fivePlayers) groupAndPlayers fivePlayers
    [4, 5, 0x1F50000000000001] where
  nodup := by decide
  queued := forall_iff_forall_mem.mp (by decide +kernel)
  players := forall_iff_forall_mem.mp (by decide +kernel)
  disjoint := by
    have hforall : [4, 5, 0x1F50000000000001].Pairwise fun guid other =>
        (groupAndPlayers.rolesOf guid).keys.Forall (· ∉ groupAndPlayers.rolesOf other) := by
      decide +kernel
    exact hforall.imp forall_iff_forall_mem.mp
  same _ _ _ _ _ h := (Option.some.inj h).symm

theorem checkCompatibility_judges_sets_groupAndPlayers :
    outcomeOf (checkCompatibility (fun _ => some fivePlayers) (queuedManager fun _ _ => false)
        firstDraws [4, 5, 0x1F50000000000001] groupAndPlayers).1 =
      outcomeOf (checkCompatibility (fun _ => some fivePlayers) (queuedManager fun _ _ => false)
        firstDraws [5, 4, 0x1F50000000000001] groupAndPlayers).1 := by
  have hlisted : Listed (fun _ => some fivePlayers) (queuedManager fun _ _ => false)
      groupAndPlayers fivePlayers [4, 5, 0x1F50000000000001] := by
    constructor
    · exact queued_groupAndPlayers
    · exact forall_iff_forall_mem.mp (by decide +kernel)
    · exact forall_iff_forall_mem.mp (by decide)
  have hlast : ∀ guid ∈ [5, 4, 0x1F50000000000001].dropLast,
      (queuedManager fun _ _ => false).isLfgGroup guid = false :=
    forall_iff_forall_mem.mp (by decide)
  exact (checkCompatibility_judges_sets (by decide) hlisted hlast firstDraws firstDraws).1

/-- A group of five players. -/
def groupOfFive : LFGQueue := queueOf fivePlayers
  [(0x1F50000000000001, [(1, 0x02), (2, 0x04), (3, 0x08), (4, 0x08), (5, 0x08)])]

/-- A group whose number of players is five in a byte. -/
def hugeGroup : LFGQueue := queueOf fivePlayers
  [(0x1F50000000000001, (List.range 261).map fun n => (UInt64.ofNat (n + 1), 0x08))]

/-- The order matters once a group of the manager is not the last one: the players after it are
not counted. A single group is full although two of its players ignore each other, or although
it has 261 players, which is five in a byte. -/
theorem not_judges_sets :
    (Queued (fun _ => some fivePlayers) groupAndPlayers fivePlayers [4, 5, 0x1F50000000000001] ∧
      outcomeOf (checkCompatibility (fun _ => some fivePlayers) (queuedManager fun _ _ => false)
        firstDraws [4, 5, 0x1F50000000000001] groupAndPlayers).1 = .full ∧
      outcomeOf (checkCompatibility (fun _ => some fivePlayers) (queuedManager fun _ _ => false)
        firstDraws [0x1F50000000000001, 4, 5] groupAndPlayers).1 = .incompatible) ∧
    (Queued (fun _ => some fivePlayers) groupOfFive fivePlayers [0x1F50000000000001] ∧
      outcomeOf (checkCompatibility (fun _ => some fivePlayers)
        (queuedManager fun guid other => guid = 1 && other = 2)
        firstDraws [0x1F50000000000001] groupOfFive).1 = .full ∧
      ¬ Peaceful (queuedManager fun guid other => guid = 1 && other = 2)
        (groupOfFive.players [0x1F50000000000001])) ∧
    (Queued (fun _ => some fivePlayers) hugeGroup fivePlayers [0x1F50000000000001] ∧
      outcomeOf (checkCompatibility (fun _ => some fivePlayers) (queuedManager fun _ _ => false)
        firstDraws [0x1F50000000000001] hugeGroup).1 = .full ∧
      hugeGroup.total [0x1F50000000000001] = 261) := by
  refine ⟨⟨queued_groupAndPlayers, by decide +kernel, by decide +kernel⟩,
    ⟨?_, by decide +kernel, ?_⟩, ⟨?_, by decide +kernel, by decide +kernel⟩⟩
  · constructor
    · decide
    · exact forall_iff_forall_mem.mp (by decide +kernel)
    · exact forall_iff_forall_mem.mp (by decide +kernel)
    · exact pairwise_singleton _ _
    · exact fun _ _ _ _ _ h => (Option.some.inj h).symm
  · unfold Peaceful
    decide +kernel
  · constructor
    · decide
    · exact forall_iff_forall_mem.mp (by decide +kernel)
    · exact forall_iff_forall_mem.mp (by decide +kernel)
    · exact pairwise_singleton _ _
    · exact fun _ _ _ _ _ h => (Option.some.inj h).symm

end LFGQueue

end TrinityCore.DungeonFinding
