import Mathlib.Data.Finset.Card
import TrinityCore.Bots.RaidSeedPlans

/-!
# The completed-encounter mask

`BuildSeedPlan` sets one bit of the mask for every done boss. `ValidateDefinition` keeps the bits
in range, but two bosses may share one: the mask of a plan counts its bosses, and tells it from
another plan, exactly as far as their bits differ.
-/

namespace TrinityCore.Bots.RaidLockout

open List

/-- The number of bits set in a mask. -/
def bitCount (mask : UInt32) : Nat := (List.range 32).countP fun i => mask.toNat.testBit i

/-- The encounter bits of the listed bosses. -/
def encounterBits (d : RaidDefinition) (bossKeys : List String) : List Int32 :=
  (listedBosses d bossKeys).map BossDefinition.dungeonEncounterBit

/-- The bits of a mask, as a list of bit numbers without repetitions. -/
def setBits (mask : UInt32) : List Nat := (List.range 32).filter fun i => mask.toNat.testBit i

theorem bitCount_eq_length (mask : UInt32) : bitCount mask = (setBits mask).length :=
  countP_eq_length_filter

/-- Masks with the same bits are equal. -/
theorem eq_of_setBits_eq {mask mask' : UInt32} (h : setBits mask = setBits mask') :
    mask = mask' := by
  apply UInt32.toNat_inj.mp
  apply Nat.eq_of_testBit_eq
  intro i
  by_cases hi : i < 32
  · have hmem : i ∈ setBits mask ↔ i ∈ setBits mask' := by rw [h]
    simpa [setBits, hi] using Bool.eq_iff_iff.mpr (by simpa [setBits, hi] using hmem)
  · have hhigh (m : UInt32) : m.toNat.testBit i = false := by
      apply Nat.testBit_lt_two_pow
      exact lt_of_lt_of_le m.toNat_lt (Nat.pow_le_pow_right (by decide) (not_lt.mp hi))
    rw [hhigh, hhigh]

/-! ### The bit of a boss -/

/-- The number of an encounter bit. -/
def bitNumber (bit : Int32) : Nat := bit.toUInt32.toNat

theorem bitNumber_lt {bit : Int32} (h : 0 ≤ bit) (hlt : bit < 32) : bitNumber bit < 32 := by
  rw [Int32.le_iff_toInt_le] at h
  rw [Int32.lt_iff_toInt_lt] at hlt
  have hbits : bit.toBitVec.toNat = bitNumber bit := rfl
  have hvalue : bit.toInt = bit.toBitVec.toInt := (Int32.toInt_toBitVec bit).symm
  rw [hvalue, BitVec.toInt_eq_toNat_cond, hbits] at h hlt
  simp only [Int32.reduceToInt] at h hlt
  split at h <;> omega

theorem bitNumber_injective : Function.Injective bitNumber := by
  intro a b h
  apply Int32.toBitVec_inj.mp
  exact BitVec.eq_of_toNat_eq h

theorem testBit_or_bit (mask : UInt32) {bit : Int32} (h : bitNumber bit < 32) (i : Nat) :
    (mask ||| (1 <<< bit.toUInt32)).toNat.testBit i =
      (mask.toNat.testBit i || decide (bitNumber bit = i)) := by
  have hshift : ((1 : UInt32) <<< bit.toUInt32).toNat = 2 ^ bitNumber bit := by
    have hpow : 2 ^ bitNumber bit < 2 ^ 32 := Nat.pow_lt_pow_right (by decide) h
    rw [UInt32.toNat_shiftLeft]
    show 1 <<< (bitNumber bit % 32) % 2 ^ 32 = _
    rw [Nat.mod_eq_of_lt h, Nat.one_shiftLeft, Nat.mod_eq_of_lt hpow]
  rw [UInt32.toNat_or, Nat.testBit_or, hshift, Nat.testBit_two_pow]

/-- The encounter bits of all bosses are in range. -/
theorem encounterBit_lt {d : RaidDefinition} (h : validateDefinition d = none)
    {boss : BossDefinition} (hboss : boss ∈ d.bosses) : boss.dungeonEncounterBit < 32 := by
  simp only [validateDefinition, Option.or_eq_none_iff, findSome?_eq_none_iff] at h
  have hcheck := h.2.2.2.2.2.1 boss hboss
  simp only [checkBoss, Option.or_eq_none_iff] at hcheck
  have hbit := hcheck.2.2.1
  split at hbit
  · cases hbit
  · next hrange => exact Int32.not_le.mp (not_or.mp hrange).2

/-! ### The mask of a plan -/

theorem testBit_mask_foldl_addDone {bosses : List BossDefinition}
    (h : ∀ boss ∈ bosses, bitNumber boss.dungeonEncounterBit < 32) (plan : SeedPlan) (i : Nat) :
    (bosses.foldl SeedPlan.addDone plan).completedEncounterMask.toNat.testBit i = true ↔
      plan.completedEncounterMask.toNat.testBit i = true ∨
        i ∈ bosses.map fun boss => bitNumber boss.dungeonEncounterBit := by
  induction bosses generalizing plan with
  | nil => simp
  | cons boss rest ih =>
    rw [foldl_cons, ih (fun b hb => h b (mem_cons_of_mem _ hb)), SeedPlan.addDone,
      testBit_or_bit _ (h boss mem_cons_self), Bool.or_eq_true, decide_eq_true_iff,
      map_cons, mem_cons, or_assoc, eq_comm (a := i)]

/-- What the mask of a plan says: its bits are those of the listed bosses. -/
structure Masked (d : RaidDefinition) (bossKeys : List String) (plan : SeedPlan) : Prop where
  done : plan.bossesDone.Perm bossKeys
  range : ∀ bit ∈ encounterBits d bossKeys, bitNumber bit < 32
  length : (encounterBits d bossKeys).length = plan.bossesDone.length
  setBits : ∀ i, i ∈ setBits plan.completedEncounterMask ↔
    i ∈ (encounterBits d bossKeys).map bitNumber

theorem masked_of_buildSeedPlan {d : RaidDefinition} {difficulty : UInt8} {bossKeys : List String}
    {plan : SeedPlan} (h : buildSeedPlan d difficulty bossKeys = .ok plan) :
    Masked d bossKeys plan := by
  obtain ⟨done, count, seeded, extras, hbuilt⟩ := buildSeedPlan_eq_ok_iff.mp h
  obtain ⟨hseeded, hseedable⟩ := hbuilt.seeded_eq
  have hperm := perm_orderedBosses hbuilt.collected
  have hdone : plan.bossesDone = (orderedBosses d done).map BossDefinition.key := by
    rw [hbuilt.finish, SeedPlan.finish, hseeded]
    exact bossesDone_foldl_addDone _ _
  have hrange (boss : BossDefinition) (hboss : boss ∈ listedBosses d bossKeys) :
      bitNumber boss.dungeonEncounterBit < 32 := by
    apply bitNumber_lt (hseedable boss hboss).bit
    apply encounterBit_lt hbuilt.valid
    exact (hbuilt.available hboss).1
  constructor
  · exact hbuilt.bossesDone_perm
  · intro bit hbit
    obtain ⟨boss, hboss, rfl⟩ := mem_map.mp hbit
    exact hrange boss hboss
  · rw [encounterBits, length_map, hdone, length_map, hperm.length_eq]
  · intro i
    have hmask : plan.completedEncounterMask.toNat.testBit i = true ↔
        i ∈ (orderedBosses d done).map fun boss => bitNumber boss.dungeonEncounterBit := by
      rw [hbuilt.finish, SeedPlan.finish, hseeded, testBit_mask_foldl_addDone]
      · simp [initialPlan]
      · exact fun boss hboss => hrange boss (hperm.mem_iff.mp hboss)
    rw [RaidLockout.setBits, mem_filter, hmask, (hperm.map _).mem_iff, mem_range,
      encounterBits, map_map]
    constructor
    · exact And.right
    · intro hmem
      refine ⟨?_, hmem⟩
      obtain ⟨boss, hboss, rfl⟩ := mem_map.mp hmem
      exact hrange boss hboss

section

variable {d : RaidDefinition} {bossKeys bossKeys' : List String} {plan plan' : SeedPlan}

/-- The mask counts the bosses exactly when their bits differ. -/
theorem Masked.bitCount_eq_iff (h : Masked d bossKeys plan) :
    bitCount plan.completedEncounterMask = plan.bossesDone.length ↔
      (encounterBits d bossKeys).Nodup := by
  have hset : (RaidLockout.setBits plan.completedEncounterMask).toFinset =
      ((encounterBits d bossKeys).map bitNumber).toFinset := by
    ext i
    rw [mem_toFinset, mem_toFinset, h.setBits]
  have hnodup : (RaidLockout.setBits plan.completedEncounterMask).Nodup := nodup_range.filter _
  rw [bitCount_eq_length, ← toFinset_card_of_nodup hnodup, hset, ← h.length,
    ← length_map bitNumber, ← nodup_map_iff bitNumber_injective]
  exact Multiset.toFinset_card_eq_card_iff_nodup

/-- Two masks are equal exactly when the plans have the same bits. -/
theorem Masked.mask_eq_iff (h : Masked d bossKeys plan) (h' : Masked d bossKeys' plan') :
    plan.completedEncounterMask = plan'.completedEncounterMask ↔
      ∀ bit, bit ∈ encounterBits d bossKeys ↔ bit ∈ encounterBits d bossKeys' := by
  have hmem (bits : List Int32) (bit : Int32) : bitNumber bit ∈ bits.map bitNumber ↔ bit ∈ bits :=
    mem_map_of_injective bitNumber_injective
  constructor
  · intro heq bit
    rw [← hmem, ← hmem, ← h.setBits, ← h'.setBits, heq]
  · intro hbits
    apply eq_of_setBits_eq
    apply filter_congr
    intro i hi
    have hiff : i ∈ RaidLockout.setBits plan.completedEncounterMask ↔
        i ∈ RaidLockout.setBits plan'.completedEncounterMask := by
      rw [h.setBits, h'.setBits, mem_map, mem_map]
      simp only [hbits]
    simpa [RaidLockout.setBits, mem_range.mp hi] using hiff

end

/-- The masks of two plans count their bosses and tell different done sets apart. -/
def Identifies (plan plan' : SeedPlan) : Prop :=
  bitCount plan.completedEncounterMask = plan.bossesDone.length ∧
    bitCount plan'.completedEncounterMask = plan'.bossesDone.length ∧
    ((∃ key, ¬ (key ∈ plan.bossesDone ↔ key ∈ plan'.bossesDone)) →
      plan.completedEncounterMask ≠ plan'.completedEncounterMask)

/-- The bosses of each list have different bits, and two lists of different bosses do not have
the same bits. -/
def BitsDiffer (d : RaidDefinition) (bossKeys bossKeys' : List String) : Prop :=
  (encounterBits d bossKeys).Nodup ∧ (encounterBits d bossKeys').Nodup ∧
    ((∃ key, ¬ (key ∈ bossKeys ↔ key ∈ bossKeys')) →
      ∃ bit, ¬ (bit ∈ encounterBits d bossKeys ↔ bit ∈ encounterBits d bossKeys'))

/-- The masks of two plans identify their bosses exactly when the encounter bits do. -/
theorem identifies_iff {d : RaidDefinition} {difficulty : UInt8} {bossKeys bossKeys' : List String}
    {plan plan' : SeedPlan} (h : buildSeedPlan d difficulty bossKeys = .ok plan)
    (h' : buildSeedPlan d difficulty bossKeys' = .ok plan') :
    Identifies plan plan' ↔ BitsDiffer d bossKeys bossKeys' := by
  have hmasked := masked_of_buildSeedPlan h
  have hmasked' := masked_of_buildSeedPlan h'
  rw [Identifies, BitsDiffer, hmasked.bitCount_eq_iff, hmasked'.bitCount_eq_iff, ne_eq,
    hmasked.mask_eq_iff hmasked', not_forall]
  simp only [hmasked.done.mem_iff, hmasked'.done.mem_iff]

/-- A raid of two bosses that share an encounter bit. -/
def sharedBitRaid : RaidDefinition where
  schema := schemaVersion
  raid := "throne_of_the_four_winds"
  mapId := 754
  scriptName := "instance_throne_of_the_four_winds"
  scriptHeader := [84, 87]
  difficulties := [0]
  encounterCount := Std.ExtTreeMap.ofList [((0 : UInt8), (2 : UInt32))]
  bosses :=
    [{ key := "conclave_of_wind", bossIndex := 0, dungeonEncounterBit := 1
       deadDbSpawnEntriesKnown := true },
     { key := "alakir", bossIndex := 1, dungeonEncounterBit := 1
       deadDbSpawnEntriesKnown := true }]

/-- Its plan with the given states and bosses done. -/
def sharedBitPlan (bossStates : List UInt8) (bossesDone : List String)
    (bossIndicesDone : List UInt32) : SeedPlan where
  difficulty := 0
  encounterCount := 2
  bossStates := bossStates
  bossesDone := bossesDone
  bossIndicesDone := bossIndicesDone
  completedEncounterMask := 2
  saveData := buildSaveData sharedBitRaid.scriptHeader bossStates []

theorem buildSeedPlan_sharedBitRaid :
    buildSeedPlan sharedBitRaid 0 ["conclave_of_wind", "alakir"] =
        .ok (sharedBitPlan [3, 3] ["conclave_of_wind", "alakir"] [0, 1]) ∧
      buildSeedPlan sharedBitRaid 0 ["alakir"] = .ok (sharedBitPlan [0, 3] ["alakir"] [1]) := by
  decide +kernel

theorem identifies_iff_sharedBitRaid :
    Identifies (sharedBitPlan [3, 3] ["conclave_of_wind", "alakir"] [0, 1])
        (sharedBitPlan [0, 3] ["alakir"] [1]) ↔
      BitsDiffer sharedBitRaid ["conclave_of_wind", "alakir"] ["alakir"] :=
  identifies_iff buildSeedPlan_sharedBitRaid.1 buildSeedPlan_sharedBitRaid.2

/-- Two done bosses and one bit; and the same mask with one of them done. -/
theorem sharedBitRaid_mask_ambiguous :
    ¬ ∀ d difficulty bossKeys bossKeys' plan plan',
      buildSeedPlan d difficulty bossKeys = .ok plan →
        buildSeedPlan d difficulty bossKeys' = .ok plan' → Identifies plan plan' := by
  intro h
  obtain ⟨hboth, hone⟩ := buildSeedPlan_sharedBitRaid
  have hcount := (h _ _ _ _ _ _ hboth hone).1
  exact absurd hcount (by decide)

end TrinityCore.Bots.RaidLockout
