import TrinityCore.Instances.InstanceResets

/-!
# The queue of the instance resets

Every map and difficulty with a reset time has one entry in the queue. Entries of individual
instances come and go without touching those; an entry of all instances is only ever replaced.
-/

namespace TrinityCore.Instances

open List

variable {x y : Int × InstResetEvent}

namespace InstanceSaveManager

variable {c : ResetConfig} {s t : InstanceSaveManager} {keys : List MapDiff} {key : MapDiff}

/-! ### The queue -/

/-- The events of all instances in the queue are those of `keys`, one of each, at their times. -/
structure QueueIndex (keys : List MapDiff) (s : InstanceSaveManager) : Prop where
  entries : ∀ x ∈ s.queue.items, (x.2.type = 0 ∧ x.2.instanceId ≠ 0) ∨
    (x.2.instanceId = 0 ∧ x.2.mapDiff ∈ keys ∧ 1 ≤ x.2.type ∧ x.2.type ≤ 4 ∧
      s.resetTimes x.2.mapDiff = some (x.1 + resetTimeDelay x.2.type))
  count : ∀ key ∈ keys, s.queue.items.countP (fun x => x.2.IsGlobal key) = 1

section

variable (h : QueueIndex keys s)
include h

/-- An entry of all instances is one with no instance id. -/
theorem QueueIndex.isGlobal (hmem : x ∈ s.queue.items) :
    x.2.IsGlobal key ↔ x.2.instanceId = 0 ∧ x.2.mapDiff = key := by
  unfold InstResetEvent.IsGlobal
  rcases h.entries x hmem with ⟨htype, hid⟩ | ⟨hid, -, hone, -⟩
  · exact iff_of_false (fun hboth => hboth.1 htype) (fun hboth => hid hboth.1)
  · constructor
    · rintro ⟨-, hkey⟩
      exact ⟨hid, hkey⟩
    · rintro ⟨-, hkey⟩
      exact ⟨by omega, hkey⟩

/-- What is left when an entry of all instances is taken has none of that map and difficulty. -/
theorem QueueIndex.rest {rest : List (Int × InstResetEvent)}
    (hperm : s.queue.items.Perm (x :: rest)) (hid : x.2.instanceId = 0) :
    x.2.mapDiff ∈ keys ∧ ∀ y ∈ rest, y.2.instanceId = 0 → y.2.mapDiff ≠ x.2.mapDiff := by
  have hx : x ∈ s.queue.items := hperm.mem_iff.mpr mem_cons_self
  have hkey : x.2.mapDiff ∈ keys := by
    rcases h.entries x hx with ⟨-, hne⟩ | ⟨-, hkey, -⟩
    · exact absurd hid hne
    · exact hkey
  refine ⟨hkey, fun y hy hzero hsame => ?_⟩
  have hcount := h.count _ hkey
  have hglobal : x.2.IsGlobal x.2.mapDiff := (h.isGlobal hx).mpr ⟨hid, rfl⟩
  rw [hperm.countP_eq, countP_cons, if_pos (decide_eq_true hglobal), Nat.add_eq_right,
    countP_eq_zero] at hcount
  apply hcount y hy
  apply decide_eq_true
  exact (h.isGlobal (hperm.mem_iff.mpr (mem_cons_of_mem x hy))).mpr ⟨hzero, hsame⟩

/-- The queue has an entry of each of the keys. -/
theorem QueueIndex.exists_entry (hkey : key ∈ keys) :
    ∃ x ∈ s.queue.items, x.2.instanceId = 0 ∧ x.2.mapDiff = key := by
  have hcount := h.count key hkey
  have hpos : 0 < s.queue.items.countP (fun x => x.2.IsGlobal key) := by omega
  obtain ⟨x, hmem, hglobal⟩ := countP_pos_iff.mp hpos
  exact ⟨x, hmem, (h.isGlobal hmem).mp (of_decide_eq_true hglobal)⟩

/-- The one entry of a key, with its time. -/
theorem QueueIndex.filter_eq (hkey : key ∈ keys) :
    ∃ t type, s.resetTimes key = some t ∧ 1 ≤ type ∧ type ≤ 4 ∧
      s.queue.items.filter (fun x => x.2.IsGlobal key) =
        [(t - resetTimeDelay type, ⟨type, key.difficulty, key.mapid, 0⟩)] := by
  have hcount := h.count key hkey
  rw [countP_eq_length_filter] at hcount
  obtain ⟨x, hx⟩ := length_eq_one_iff.mp hcount
  have hmem : x ∈ s.queue.items.filter fun x => x.2.IsGlobal key := hx ▸ mem_singleton_self x
  obtain ⟨hin, hglobal⟩ := mem_filter.mp hmem
  obtain ⟨hid, rfl⟩ := (h.isGlobal hin).mp (of_decide_eq_true hglobal)
  rcases h.entries x hin with ⟨-, hne⟩ | ⟨-, -, hone, hfour, htime⟩
  · exact absurd hid hne
  · refine ⟨_, x.2.type, htime, hone, hfour, ?_⟩
    rw [hx, Int.add_sub_cancel, ← hid]
    rfl

/-- An entry of an individual instance comes or goes. -/
theorem QueueIndex.of_individual (htimes : t.resetTimes = s.resetTimes)
    (hid : x.2.instanceId ≠ 0) (htype : x.2.type = 0)
    (hperm : s.queue.items.Perm (x :: t.queue.items) ∨ t.queue.items.Perm (x :: s.queue.items)) :
    QueueIndex keys t := by
  have hnot : ∀ key, ¬x.2.IsGlobal key := fun key hglobal => hglobal.1 htype
  constructor
  · intro y hy
    rw [htimes]
    rcases hperm with hperm | hperm
    · exact h.entries y (hperm.mem_iff.mpr (mem_cons_of_mem x hy))
    · rcases mem_cons.mp (hperm.mem_iff.mp hy) with rfl | hold
      · exact .inl ⟨htype, hid⟩
      · exact h.entries y hold
  · intro key hkey
    have hcount := h.count key hkey
    have hskip : ∀ l, (x :: l).countP (fun x => x.2.IsGlobal key) =
        l.countP fun x => x.2.IsGlobal key :=
      fun l => countP_cons_of_neg (by simpa using hnot key)
    rcases hperm with hperm | hperm
    · rwa [hperm.countP_eq, hskip] at hcount
    · rwa [hperm.countP_eq, hskip]

/-- An entry of all instances is replaced by another of the same map and difficulty, at a reset
time of its own. -/
theorem QueueIndex.replace {rest : List (Int × InstResetEvent)}
    (hbefore : s.queue.items.Perm (x :: rest)) (hx : x.2.instanceId = 0)
    (hafter : t.queue.items.Perm (y :: rest)) (hy : y.2.instanceId = 0)
    (hsame : y.2.mapDiff = x.2.mapDiff) (hone : 1 ≤ y.2.type) (hfour : y.2.type ≤ 4)
    (htime : t.resetTimes y.2.mapDiff = some (y.1 + resetTimeDelay y.2.type))
    (htimes : ∀ key, key ≠ y.2.mapDiff → t.resetTimes key = s.resetTimes key) :
    QueueIndex keys t := by
  obtain ⟨hkey, hrest⟩ := h.rest hbefore hx
  constructor
  · intro z hz
    rcases mem_cons.mp (hafter.mem_iff.mp hz) with rfl | hold
    · exact .inr ⟨hy, hsame ▸ hkey, hone, hfour, htime⟩
    · rcases h.entries z (hbefore.mem_iff.mpr (mem_cons_of_mem x hold)) with
        hindividual | ⟨hid, hin, hz1, hz4, hztime⟩
      · exact .inl hindividual
      · refine .inr ⟨hid, hin, hz1, hz4, ?_⟩
        rw [htimes _ (hsame ▸ hrest z hold hid)]
        exact hztime
  · intro key hin
    have hcount := h.count key hin
    have hglobal : (y.2.IsGlobal key) ↔ x.2.IsGlobal key := by
      rw [h.isGlobal (hbefore.mem_iff.mpr mem_cons_self)]
      unfold InstResetEvent.IsGlobal
      rw [hsame, iff_true_intro hx, true_and]
      exact and_iff_right (by omega)
    rw [hbefore.countP_eq, countP_cons] at hcount
    rw [hafter.countP_eq, countP_cons]
    simpa only [hglobal] using hcount

/-- A map and difficulty that has had no entry gets one. -/
theorem QueueIndex.add (hnew : key ∉ keys)
    (hafter : t.queue.items.Perm (y :: s.queue.items)) (hy : y.2.instanceId = 0)
    (hkey : y.2.mapDiff = key) (hone : 1 ≤ y.2.type) (hfour : y.2.type ≤ 4)
    (htime : t.resetTimes key = some (y.1 + resetTimeDelay y.2.type))
    (htimes : ∀ other, other ≠ key → t.resetTimes other = s.resetTimes other) :
    QueueIndex (keys ++ [key]) t := by
  constructor
  · intro z hz
    rcases mem_cons.mp (hafter.mem_iff.mp hz) with rfl | hold
    · exact Or.inr ⟨hy, by simp [hkey], hone, hfour, hkey ▸ htime⟩
    · rcases h.entries z hold with hindividual | ⟨hid, hin, hz1, hz4, hztime⟩
      · exact .inl hindividual
      · refine .inr ⟨hid, mem_append_left _ hin, hz1, hz4, ?_⟩
        rw [htimes _ (fun heq => hnew (heq ▸ hin))]
        exact hztime
  · intro other hin
    rw [hafter.countP_eq, countP_cons]
    rcases mem_append.mp hin with hold | hlast
    · have hne : ¬y.2.IsGlobal other := by
        rintro ⟨-, heq⟩
        exact hnew (hkey ▸ heq ▸ hold)
      simp [hne, h.count other hold]
    · obtain rfl := mem_singleton.mp hlast
      have hglobal : y.2.IsGlobal other := ⟨by omega, hkey⟩
      have hzero : s.queue.items.countP (fun x => x.2.IsGlobal other) = 0 := by
        rw [countP_eq_zero]
        intro z hz hglobal
        have hboth := (h.isGlobal hz).mp (of_decide_eq_true hglobal)
        rcases h.entries z hz with ⟨-, hid⟩ | ⟨-, hkeys, -⟩
        · exact hid hboth.1
        · exact hnew (hboth.2 ▸ hkeys)
      simp [hglobal, hzero]

theorem QueueIndex.congr (hitems : t.queue.items = s.queue.items)
    (htimes : t.resetTimes = s.resetTimes) : QueueIndex keys t := by
  constructor
  · rw [hitems, htimes]
    exact h.entries
  · rw [hitems]
    exact h.count

end

theorem new_eq {type instanceId : Nat} (htype : type < 2 ^ 8) (hmapid : key.mapid < 2 ^ 16)
    (hdifficulty : key.difficulty < 2 ^ 8) (hid : instanceId < 2 ^ 16) :
    InstResetEvent.new type key.mapid key.difficulty instanceId =
      ⟨type, key.difficulty, key.mapid, instanceId⟩ := by
  unfold InstResetEvent.new
  rw [Nat.mod_eq_of_lt htype, Nat.mod_eq_of_lt hmapid, Nat.mod_eq_of_lt hdifficulty,
    Nat.mod_eq_of_lt hid]

/-! ### Cancellations -/

/-- The entry that a cancellation finds. -/
def findEvent (s : InstanceSaveManager) (time : Int) (instanceId : Nat) :
    Option (Int × InstResetEvent) :=
  (s.queue.items.find? fun x => x.1 = time && x.2.instanceId = instanceId).or
    (s.queue.items.find? fun x => x.2.instanceId = instanceId)

theorem findEvent_eq_some {time : Int} {instanceId : Nat}
    (h : s.findEvent time instanceId = some x) :
    x ∈ s.queue.items ∧ x.2.instanceId = instanceId := by
  unfold findEvent at h
  rcases Option.or_eq_some_iff.mp h with hfound | ⟨-, hfound⟩
  · refine ⟨mem_of_find?_eq_some hfound, ?_⟩
    have hboth := find?_some hfound
    simp only [Bool.and_eq_true, decide_eq_true_eq] at hboth
    exact hboth.2
  · exact ⟨mem_of_find?_eq_some hfound, by simpa using find?_some hfound⟩

theorem findEvent_eq_none {time : Int} {instanceId : Nat}
    (h : s.findEvent time instanceId = none) :
    ∀ x ∈ s.queue.items, x.2.instanceId ≠ instanceId := by
  unfold findEvent at h
  intro x hmem
  simpa using find?_eq_none.mp (Option.or_eq_none_iff.mp h).2 x hmem

/-- What a cancellation does to the queue. -/
theorem cancelReset_queue (s : InstanceSaveManager) (time : Int) (event : InstResetEvent) :
    (s.cancelReset time event).cancelled = s.cancelled ++
        [{ named := event
           removed := s.findEvent time event.instanceId
           before := s.queue.items
           left := (s.cancelReset time event).queue.items }] ∧
      match s.findEvent time event.instanceId with
      | some x => s.queue.items.Perm (x :: (s.cancelReset time event).queue.items)
      | none => (s.cancelReset time event).queue.items = s.queue.items := by
  have hfound : s.queue.items.find? (if s.queue.items.any
        fun x => decide (x.1 = time) && x.2.equal event then
          fun x => decide (x.1 = time) && x.2.equal event else fun x => x.2.equal event) =
      s.findEvent time event.instanceId := by
    have hequal : ∀ x : Int × InstResetEvent,
        x.2.equal event = decide (x.2.instanceId = event.instanceId) := by
      intro x
      unfold InstResetEvent.equal
      simp only [eq_comm]
    unfold findEvent
    simp only [hequal]
    split
    · next hany =>
      obtain ⟨x, hx⟩ := Option.isSome_iff_exists.mp (find?_isSome.mpr
        (any_eq_true.mp hany))
      rw [hx, Option.some_or]
    · next hnone =>
      rw [find?_eq_none.mpr fun x hx hp => hnone (any_eq_true.mpr ⟨x, hx, hp⟩), Option.none_or]
  refine ⟨?_, ?_⟩
  · unfold cancelReset
    dsimp only
    rw [hfound]
  split
  · next x hx => exact MultiMap.perm_eraseFirst (hfound.trans hx)
  · next hnone =>
    have hnot := find?_eq_none.mp (hfound.trans hnone)
    exact eraseP_of_forall_not hnot

/-! ### Resets -/

theorem mem_globalResets : key ∈ c.globalResets ↔
    ∃ entry, c.getMapDifficultyData key = some entry ∧ entry.resetTime ≠ 0 ∧
      entry.toMapDiff = key := by
  unfold ResetConfig.globalResets ResetConfig.getMapDifficultyData
  simp only [mem_map, mem_filter, decide_eq_true_eq]
  constructor
  · rintro ⟨entry, ⟨hmem, hreset⟩, rfl⟩
    cases hfind : c.mapDifficulties.find? (·.toMapDiff = entry.toMapDiff) with
    | none =>
      have hnone := find?_eq_none.mp hfind entry hmem
      simp at hnone
    | some found =>
      have hkey : found.toMapDiff = entry.toMapDiff := by simpa using find?_some hfind
      obtain rfl := inj_on_of_nodup_map c.keys (mem_of_find?_eq_some hfind) hmem hkey
      exact ⟨found, rfl, hreset, rfl⟩
  · rintro ⟨entry, hfind, hreset, hkey⟩
    exact ⟨entry, ⟨mem_of_find?_eq_some hfind, hreset⟩, hkey⟩

theorem nodup_globalResets (c : ResetConfig) : c.globalResets.Nodup :=
  c.keys.sublist (filter_sublist.map _)

theorem mem_mapDifficulties {entry : MapDifficulty}
    (h : c.getMapDifficultyData key = some entry) : entry ∈ c.mapDifficulties :=
  mem_of_find?_eq_some h

theorem day_le_period (entry : MapDifficulty) : DAY ≤ ResetConfig.period entry := by
  unfold ResetConfig.period
  split <;> omega

/-- The next reset time is after the day of the one before. -/
theorem lt_getSubsequentResetTime (hkey : key ∈ c.globalResets) (resetTime : Int) :
    resetTime + MINUTE < c.getSubsequentResetTime key resetTime := by
  obtain ⟨entry, hfind, hreset, -⟩ := mem_globalResets.mp hkey
  have hperiod := day_le_period entry
  unfold ResetConfig.getSubsequentResetTime ResetConfig.diff
  rw [hfind]
  dsimp only
  rw [if_neg hreset]
  unfold DAY MINUTE HOUR at *
  omega

/-- A reset that is not only a warning. -/
theorem resetOrWarnAll_reset (hkey : key ∈ c.globalResets) {resetTime : Int} (hpos : 0 ≤ resetTime)
    (cause : ResetCause) :
    s.resetOrWarnAll c key false resetTime cause =
      { s with
        resetTimes :=
          Function.update s.resetTimes key (some (c.getSubsequentResetTime key resetTime))
        queue := s.queue.insert (c.getSubsequentResetTime key resetTime - 3600,
          ⟨1, key.difficulty, key.mapid, 0⟩)
        resets := s.resets ++
          [{ key, resetTime, next := c.getSubsequentResetTime key resetTime, cause }] } := by
  obtain ⟨entry, hfind, hreset, rfl⟩ := mem_globalResets.mp hkey
  have hmem := mem_mapDifficulties hfind
  have hnext := lt_getSubsequentResetTime hkey resetTime
  obtain ⟨hmapid, hdifficulty⟩ := c.fits entry hmem
  have hevent : InstResetEvent.new 1 entry.mapid entry.difficulty 0 =
      ⟨1, entry.difficulty, entry.mapid, 0⟩ := by
    have htype : 1 % 2 ^ 8 = 1 := by decide
    have hinstance : 0 % 2 ^ 16 = 0 := by decide
    rw [InstResetEvent.new, Nat.mod_eq_of_lt hmapid, Nat.mod_eq_of_lt hdifficulty, htype, hinstance]
  unfold resetOrWarnAll
  rw [c.maps entry hmem hreset]
  dsimp only
  rw [if_neg (by decide), if_neg (by decide), if_neg (by unfold MINUTE at hnext; omega), hevent]
  rfl

theorem resetOrWarnAll_warn (resetTime : Int) (cause : ResetCause) :
    s.resetOrWarnAll c key true resetTime cause = s := by
  unfold resetOrWarnAll
  simp

end InstanceSaveManager

end TrinityCore.Instances
