import TrinityCore.Battlegrounds.FillPlayers
import TrinityCore.Battlegrounds.GroupIndex

/-!
# Balanced teams of a running battleground

The selections of both factions stay within their queues and slots, each turn of the balancing loop
kicks a group for good, and every way out of the loop leaves the teams balanced.
-/

namespace TrinityCore.Battlegrounds

open List Option

/-- What is left to do for a selection: its groups may be kicked, and those from the iterator on
may be added first. -/
def Selection.work (s : Selection) : Nat := s.pool.selectedGroups.length + 2 * s.groups.length

variable {s : Selection} {aliFree hordeFree : Int}

namespace BattlegroundQueue

variable {q : BattlegroundQueue} {queue : List GroupId} {bound desired : Nat}

/-- A selection from a queue: its groups and those from the iterator on stand in the queue in this
order, no group is invited, and the players are counted and are within the slots. -/
structure SelectedFrom (q : BattlegroundQueue) (queue : List GroupId) (bound : Nat)
    (s : Selection) : Prop where
  sublist : (s.pool.selectedGroups ++ s.groups).Sublist queue
  uninvited : ∀ group ∈ s.pool.selectedGroups, q.isInvited group = false
  count : s.pool.playerCount = (s.pool.selectedGroups.map q.groupSize).sum
  bounded : s.pool.playerCount ≤ bound

/-! ### Adding groups -/

/-- A group is added, or it is passed over while players are missing. -/
theorem addToPool_cases (q : BattlegroundQueue) (pool : SelectionPool) (group : GroupId)
    (desired : Nat) :
    (q.isInvited group = false ∧ pool.playerCount + q.groupSize group ≤ desired ∧
        q.addToPool pool group desired =
          (true, ⟨pool.selectedGroups ++ [group], pool.playerCount + q.groupSize group⟩)) ∨
      q.addToPool pool group desired = (decide (pool.playerCount < desired), pool) := by
  unfold addToPool
  dsimp only
  split
  · next hfits =>
    rw [Bool.and_eq_true, Bool.not_eq_true', decide_eq_true_eq] at hfits
    exact .inl ⟨hfits.1, hfits.2, rfl⟩
  · exact .inr rfl

theorem SelectedFrom.added {group : GroupId} {rest : List GroupId}
    (h : SelectedFrom q queue bound s) (hgroups : s.groups = group :: rest)
    (hinvited : q.isInvited group = false)
    (hfits : s.pool.playerCount + q.groupSize group ≤ bound) :
    SelectedFrom q queue bound
      ⟨⟨s.pool.selectedGroups ++ [group], s.pool.playerCount + q.groupSize group⟩, rest⟩ where
  sublist := by
    have hsub := h.sublist
    rw [hgroups] at hsub
    rw [append_assoc]
    exact hsub
  uninvited := by
    intro other hmem
    rcases mem_append.mp hmem with hmem | hmem
    · exact h.uninvited other hmem
    · rw [mem_singleton.mp hmem]
      exact hinvited
  count := by simp [h.count]
  bounded := hfits

theorem SelectedFrom.passed {group : GroupId} {rest : List GroupId}
    (h : SelectedFrom q queue bound s) (hgroups : s.groups = group :: rest) :
    SelectedFrom q queue bound ⟨s.pool, rest⟩ where
  sublist := by
    have hsub := h.sublist
    rw [hgroups] at hsub
    exact ((sublist_cons_self group rest).append_left _).trans hsub
  uninvited := h.uninvited
  count := h.count
  bounded := h.bounded

/-- The loops over `AddGroup` keep a selection, and leave less to do. -/
theorem SelectedFrom.addGroups {groups : List GroupId} {pool : SelectionPool}
    (h : SelectedFrom q queue bound ⟨pool, groups⟩) (hdesired : desired ≤ bound) :
    SelectedFrom q queue bound (q.addGroups desired groups pool) ∧
      (q.addGroups desired groups pool).work ≤ Selection.work ⟨pool, groups⟩ := by
  induction groups generalizing pool with
  | nil => exact ⟨h, Nat.le_refl _⟩
  | cons group rest ih =>
    unfold BattlegroundQueue.addGroups
    rcases addToPool_cases q pool group desired with ⟨hinvited, hfits, hadd⟩ | hpass
    · rw [hadd]
      dsimp only
      obtain ⟨hselected, hwork⟩ := ih (h.added rfl hinvited (hfits.trans hdesired))
      refine ⟨hselected, hwork.trans ?_⟩
      simp only [Selection.work, length_append, length_cons, length_nil]
      omega
    · rw [hpass]
      cases hmissing : decide (pool.playerCount < desired) with
      | false => exact ⟨h, Nat.le_refl _⟩
      | true =>
        obtain ⟨hselected, hwork⟩ := ih (h.passed rfl)
        refine ⟨hselected, hwork.trans ?_⟩
        simp only [Selection.work, length_cons]
        omega

/-- No more players are added than are desired. -/
theorem playerCount_addGroups {groups : List GroupId} {pool : SelectionPool}
    (h : pool.playerCount ≤ desired) :
    (q.addGroups desired groups pool).pool.playerCount ≤ desired := by
  induction groups generalizing pool with
  | nil => exact h
  | cons group rest ih =>
    unfold BattlegroundQueue.addGroups
    rcases addToPool_cases q pool group desired with ⟨-, hfits, hadd⟩ | hpass
    · rw [hadd]
      exact ih hfits
    · rw [hpass]
      cases decide (pool.playerCount < desired) with
      | false => exact h
      | true => exact ih h

/-! ### Kicking groups -/

/-- The loop of `KickGroup` stops at a group of the pool. -/
theorem groupToKick_lt {groups : List GroupId} (hne : groups ≠ []) (size : Nat) :
    q.groupToKick size groups < groups.length := by
  have hvisit : ∀ (items : List (GroupId × Nat)) (best : Bool × Nat),
      (∀ item ∈ items, item.2 < groups.length) → best.2 < groups.length →
      (items.foldl (q.visitGroup size groups) best).2 < groups.length := by
    intro items
    induction items with
    | nil => exact fun _ _ hbest => hbest
    | cons item items ih =>
      intro best hitems hbest
      obtain ⟨hitem, hrest⟩ := forall_mem_cons.mp hitems
      apply ih _ hrest
      unfold visitGroup
      split
      · exact hitem
      · split
        · exact hitem
        · exact hbest
  apply hvisit
  · intro item hmem
    have hlt := snd_lt_of_mem_zipIdx hmem
    omega
  · exact length_pos_iff.mpr hne

/-- A selection without one of its groups. -/
theorem SelectedFrom.kicked {i : Nat} {group : GroupId} (h : SelectedFrom q queue bound s)
    (hgroup : s.pool.selectedGroups[i]? = some group) :
    SelectedFrom q queue bound
      ⟨⟨s.pool.selectedGroups.eraseIdx i, s.pool.playerCount - q.groupSize group⟩, s.groups⟩ where
  sublist := ((eraseIdx_sublist _ i).append_right _).trans h.sublist
  uninvited := fun other hmem => h.uninvited other ((eraseIdx_sublist _ i).subset hmem)
  count := by
    obtain ⟨hi, hget⟩ := List.getElem?_eq_some_iff.mp hgroup
    have hsum := ((getElem_cons_eraseIdx_perm hi).map q.groupSize).sum_eq
    rw [map_cons, sum_cons, hget] at hsum
    dsimp only
    rw [h.count, ← hsum, Nat.add_sub_cancel_left]
  bounded := (Nat.sub_le _ _).trans h.bounded

/-- Nobody is in a pool that has no group, and only there. -/
theorem SelectedFrom.selectedGroups_eq_nil (h : SelectedFrom q queue bound s)
    (hsizes : ∀ group ∈ queue, 0 < q.groupSize group) :
    s.pool.selectedGroups = [] ↔ s.pool.playerCount = 0 := by
  rw [h.count]
  constructor
  · intro hnil
    rw [hnil]
    rfl
  · intro hzero
    cases hgroups : s.pool.selectedGroups with
    | nil => rfl
    | cons group rest =>
      have hmem : group ∈ queue := h.sublist.subset (by simp [hgroups])
      have hpos := hsizes group hmem
      rw [hgroups, map_cons, sum_cons] at hzero
      omega

/-- `KickGroup` kicks a group wherever there is one. -/
theorem SelectedFrom.kickGroup {s : Selection} (h : SelectedFrom q queue bound s)
    (hsizes : ∀ group ∈ queue, 0 < q.groupSize group) (size : Nat) :
    ∃ more pool, q.kickGroup s.pool size = some (more, pool) ∧
      SelectedFrom q queue bound ⟨pool, s.groups⟩ ∧
      (s.pool.playerCount = 0 ∧ more = true ∧ pool = s.pool ∨
        pool.selectedGroups.length + 1 = s.pool.selectedGroups.length) := by
  unfold BattlegroundQueue.kickGroup
  split
  · next hzero => exact ⟨true, s.pool, rfl, h, .inl ⟨hzero, rfl, rfl⟩⟩
  · next hcount =>
    have hne : s.pool.selectedGroups ≠ [] := (h.selectedGroups_eq_nil hsizes).not.mpr hcount
    have hlt := @groupToKick_lt q _ hne size
    have hgroup := getElem?_eq_getElem hlt
    dsimp only
    rw [hgroup, map_some]
    refine ⟨_, _, rfl, h.kicked hgroup, .inr ?_⟩
    have hlength := length_eraseIdx_add_one hlt
    exact hlength

/-! ### The balancing loop -/

/-- The slots that are left differ by one at most, or no group is selected of the faction that has
fewer of them left. -/
def Settled (aliFree hordeFree : Int) (ali horde : SelectionPool) : Prop :=
  let diffAli := aliFree - ali.playerCount
  let diffHorde := hordeFree - horde.playerCount
  (diffAli - diffHorde).natAbs ≤ 1 ∨ diffAli < diffHorde ∧ ali.selectedGroups = [] ∨
    diffHorde < diffAli ∧ horde.selectedGroups = []

theorem Settled.symm {ali horde : SelectionPool} (h : Settled aliFree hordeFree ali horde) :
    Settled hordeFree aliFree horde ali := by
  unfold Settled at h ⊢
  dsimp only at h ⊢
  rcases h with habs | hali | hhorde
  · exact .inl (by omega)
  · exact .inr (.inr hali)
  · exact .inr (.inl hhorde)

/-- What is wanted of the kicked faction is within its slots. -/
theorem desiredCount_le {ownFree : Nat} {otherDiff : Int} (hother : 0 ≤ otherDiff) :
    (if otherDiff ≤ ownFree then ((ownFree : Int) - otherDiff).toNat else 0) ≤ ownFree := by
  split
  · omega
  · exact Nat.zero_le _

variable {ownQueue otherQueue : List GroupId} {ownFree otherFree : Nat} {own other : Selection}

/-- A turn breaks the loop with nobody selected of the faction with less slots left, or there is
less to do after it. -/
theorem SelectedFrom.kickOwn (hown : SelectedFrom q ownQueue ownFree own)
    (hother : SelectedFrom q otherQueue otherFree other)
    (hownSizes : ∀ group ∈ ownQueue, 0 < q.groupSize group)
    (hotherSizes : ∀ group ∈ otherQueue, 0 < q.groupSize group) {ownDiff otherDiff : Int}
    (hownDiff : ownDiff = ownFree - own.pool.playerCount)
    (hotherDiff : otherDiff = otherFree - other.pool.playerCount) (hlt : ownDiff < otherDiff) :
    ∃ broke own' other', q.kickOwn ownFree ownDiff otherDiff own other =
        some (broke, own', other') ∧
      SelectedFrom q ownQueue ownFree own' ∧ SelectedFrom q otherQueue otherFree other' ∧
      (broke = true ∧ own'.pool.playerCount = 0 ∧ ownFree ≤ otherDiff + 1 ∧ other' = other ∨
        broke = false ∧ own'.work + other'.work < own.work + other.work) := by
  have hnonneg : 0 ≤ otherDiff := by
    have hbounded := hother.bounded
    omega
  obtain ⟨more, pool, hkick, hpool, hkicked⟩ := hown.kickGroup hownSizes (otherDiff - ownDiff).toNat
  obtain ⟨other', hkickOther, hother', hotherWork⟩ : ∃ pool',
      (∃ more', q.kickGroup other.pool (otherDiff - ownDiff).toNat = some (more', pool')) ∧
        SelectedFrom q otherQueue otherFree { other with pool := pool' } ∧
        Selection.work { other with pool := pool' } ≤ other.work := by
    obtain ⟨more', pool', hkick', hpool', hcases⟩ :=
      hother.kickGroup hotherSizes (otherDiff - ownDiff).toNat
    refine ⟨pool', ⟨more', hkick'⟩, hpool', ?_⟩
    unfold Selection.work
    rcases hcases with ⟨-, -, rfl⟩ | hlength
    · exact Nat.le_refl _
    · dsimp only
      omega
  obtain ⟨desiredCount, hdesired⟩ : ∃ desiredCount, desiredCount =
    if otherDiff ≤ ownFree then ((ownFree : Int) - otherDiff).toNat else 0 := ⟨_, rfl⟩
  obtain ⟨own', hown'⟩ : ∃ own', own' =
    if more then q.addGroups desiredCount own.groups pool else { own with pool } := ⟨_, rfl⟩
  have hkept : SelectedFrom q ownQueue ownFree own' ∧
      own'.work ≤ Selection.work ⟨pool, own.groups⟩ := by
    rw [hown']
    split
    · exact hpool.addGroups (hdesired.trans_le (desiredCount_le hnonneg))
    · exact ⟨hpool, Nat.le_refl _⟩
  -- A pool with nobody in it is left as it is, as nobody is wanted then.
  have hless : own.pool.playerCount = 0 → own'.pool.playerCount = 0 := by
    intro hzero
    have hwant : desiredCount = 0 := by
      rw [hdesired, if_neg (by omega)]
    rcases hkicked with ⟨-, rfl, rfl⟩ | hlength
    · have hle := @playerCount_addGroups q desiredCount own.groups own.pool
        (by rw [hzero]; exact Nat.zero_le _)
      rw [hown', if_pos rfl]
      omega
    · have hnil := (hown.selectedGroups_eq_nil hownSizes).mpr hzero
      rw [hnil] at hlength
      cases hlength
  have hwork : own.pool.playerCount ≠ 0 → own'.work < own.work := by
    intro hcount
    rcases hkicked with ⟨hzero, -⟩ | hlength
    · exact absurd hzero hcount
    · have hle := hkept.2
      unfold Selection.work at hle ⊢
      dsimp only at hle
      omega
  unfold BattlegroundQueue.kickOwn
  dsimp only
  rw [hkick, bind_eq_bind, bind_some, ← hdesired]
  dsimp only
  rw [← hown']
  by_cases hempty : own'.pool.playerCount = 0
  · rw [if_pos hempty]
    by_cases hbreak : (ownFree : Int) ≤ otherDiff + 1
    · rw [if_pos hbreak]
      exact ⟨true, own', other, rfl, hkept.1, hother, .inl ⟨rfl, hempty, hbreak, rfl⟩⟩
    · obtain ⟨more', hkick'⟩ := hkickOther
      rw [if_neg hbreak, hkick', bind_some]
      refine ⟨false, own', _, rfl, hkept.1, hother', .inr ⟨rfl, ?_⟩⟩
      exact Nat.add_lt_add_of_lt_of_le (hwork (by omega)) hotherWork
  · rw [if_neg hempty]
    refine ⟨false, own', other, rfl, hkept.1, hother, .inr ⟨rfl, ?_⟩⟩
    exact Nat.add_lt_add_right (hwork fun hzero => hempty (hless hzero)) _

/-- Where a turn breaks the loop, the teams are balanced. -/
theorem settled_of_break {own' : Selection} (hown' : SelectedFrom q ownQueue ownFree own')
    (hsizes : ∀ group ∈ ownQueue, 0 < q.groupSize group) (hempty : own'.pool.playerCount = 0)
    (hbreak : (ownFree : Int) ≤ otherFree - other.pool.playerCount + 1) :
    Settled ownFree otherFree own'.pool other.pool := by
  have hnil := (hown'.selectedGroups_eq_nil hsizes).mpr hempty
  unfold Settled
  dsimp only
  rw [hempty]
  by_cases hfew : (ownFree : Int) < otherFree - other.pool.playerCount
  · exact .inr (.inl ⟨by omega, hnil⟩)
  · exact .inl (by omega)

variable {queues : TeamId → List GroupId} {free : TeamId → Nat} {ali horde : Selection}

/-- The balancing loop ends, with balanced teams. -/
theorem balance_settled (hsizes : ∀ team, ∀ group ∈ queues team, 0 < q.groupSize group)
    (hali : SelectedFrom q (queues 0) (free 0) ali)
    (hhorde : SelectedFrom q (queues 1) (free 1) horde) {turns : Nat}
    (hturns : ali.work + horde.work < turns) :
    ∃ ali' horde', q.balance (free 0) (free 1) turns ali horde = some (ali', horde') ∧
      SelectedFrom q (queues 0) (free 0) ali' ∧ SelectedFrom q (queues 1) (free 1) horde' ∧
      Settled (free 0) (free 1) ali'.pool horde'.pool := by
  induction turns generalizing ali horde with
  | zero => omega
  | succ turns ih =>
    unfold balance
    dsimp only
    split
    · next hgo =>
      split
      · next hlt =>
        obtain ⟨broke, ali', horde', hturn, hali', hhorde', hcases⟩ :=
          hali.kickOwn hhorde (hsizes 0) (hsizes 1) rfl rfl hlt
        rw [hturn]
        rcases hcases with ⟨rfl, hempty, hbreak, rfl⟩ | ⟨rfl, hwork⟩
        · exact ⟨ali', horde', rfl, hali', hhorde', settled_of_break hali' (hsizes 0) hempty hbreak⟩
        · exact ih hali' hhorde' (by omega)
      · next hge =>
        obtain ⟨broke, horde', ali', hturn, hhorde', hali', hcases⟩ :=
          hhorde.kickOwn hali (hsizes 1) (hsizes 0) rfl rfl (by omega)
        rw [hturn]
        rcases hcases with ⟨rfl, hempty, hbreak, rfl⟩ | ⟨rfl, hwork⟩
        · exact ⟨ali', horde', rfl, hali', hhorde',
            (settled_of_break hhorde' (hsizes 1) hempty hbreak).symm⟩
        · exact ih hali' hhorde' (by omega)
    · next hend =>
      refine ⟨ali, horde, rfl, hali, hhorde, ?_⟩
      have haliNil := hali.selectedGroups_eq_nil (hsizes 0)
      have hhordeNil := hhorde.selectedGroups_eq_nil (hsizes 1)
      unfold Settled
      dsimp only
      by_cases habs : ((free 0 : Int) - ali.pool.playerCount -
          (free 1 - horde.pool.playerCount)).natAbs ≤ 1
      · exact .inl habs
      · rw [haliNil, hhordeNil]
        omega

/-- More turns change nothing. -/
theorem balance_of_le {turns turns' : Nat} (hle : turns ≤ turns') {result : Selection × Selection}
    (h : q.balance aliFree hordeFree turns ali horde = some result) :
    q.balance aliFree hordeFree turns' ali horde = some result := by
  induction turns generalizing turns' ali horde with
  | zero => cases h
  | succ turns ih =>
    obtain ⟨turns', rfl⟩ : ∃ n, turns' = n + 1 := ⟨turns' - 1, by omega⟩
    have hle' : turns ≤ turns' := Nat.le_of_succ_le_succ hle
    unfold balance at h ⊢
    dsimp only at h ⊢
    split
    · next hgo =>
      rw [if_pos hgo] at h
      split
      · next hlt =>
        rw [if_pos hlt] at h
        split
        · next hturn =>
          rw [hturn] at h
          exact h
        · next hturn =>
          rw [hturn] at h
          exact h
        · next hturn =>
          rw [hturn] at h
          exact ih hle' h
      · next hge =>
        rw [if_neg hge] at h
        split
        · next hturn =>
          rw [hturn] at h
          exact h
        · next hturn =>
          rw [hturn] at h
          exact h
        · next hturn =>
          rw [hturn] at h
          exact ih hle' h
    · next hend =>
      rw [if_neg hend] at h
      exact h

/-! ### Filling a battleground -/

/-- What a pool holds after groups were selected from a queue for free slots. -/
structure FilledFrom (q : BattlegroundQueue) (queue : List GroupId) (slots : Nat)
    (pool : SelectionPool) : Prop where
  /-- Each place of the queue is selected once at most. -/
  sublist : pool.selectedGroups.Sublist queue
  distinct : queue.Nodup → pool.selectedGroups.Nodup
  uninvited : ∀ group ∈ pool.selectedGroups, q.isInvited group = false
  count : pool.playerCount = (pool.selectedGroups.map fun group => (q.ginfo group).players.length).sum
  bounded : pool.playerCount ≤ slots

theorem SelectedFrom.filled {s : Selection} (h : SelectedFrom q.initPools queue bound s) {slots : Nat}
    (hslots : bound ≤ slots) : FilledFrom q queue slots s.pool where
  sublist := (sublist_append_left _ _).trans h.sublist
  distinct := fun hnodup => hnodup.sublist ((sublist_append_left _ _).trans h.sublist)
  uninvited := h.uninvited
  count := h.count
  bounded := h.bounded.trans hslots

/-- The slots of a faction are not raised, and they are lowered only where one of each is free. -/
theorem evenSlots_eq (invitationType : InvitationType) (aliCount hordeCount : UInt32)
    (aliFree hordeFree : Nat) :
    ∃ ali horde : Nat, evenSlots invitationType aliCount hordeCount aliFree hordeFree =
        (↑ali, ↑horde) ∧ ali ≤ aliFree ∧ horde ≤ hordeFree ∧
      (ali = aliFree ∧ horde = hordeFree ∨ aliFree = 1 ∧ hordeFree = 1) := by
  unfold evenSlots
  split
  · next heven =>
    obtain ⟨-, hhorde, hali, -⟩ := heven
    have haliOne : aliFree = 1 := by omega
    have hhordeOne : hordeFree = 1 := by omega
    dsimp only
    refine ⟨(max ((aliFree : Int) - max (aliCount - hordeCount).toInt32.toInt 0) 0).toNat,
      (max ((hordeFree : Int) - max (hordeCount - aliCount).toInt32.toInt 0) 0).toNat, ?_, ?_, ?_,
      Or.inr ⟨haliOne, hhordeOne⟩⟩
    · rw [Int.toNat_of_nonneg (le_max_right _ _), Int.toNat_of_nonneg (le_max_right _ _)]
    · omega
    · omega
  · exact ⟨aliFree, hordeFree, rfl, Nat.le_refl _, Nat.le_refl _, .inl ⟨rfl, rfl⟩⟩

/-- A new selection of the groups of a queue. -/
theorem selectedFrom_init (queue : List GroupId) (count bound : Nat) :
    SelectedFrom q queue bound (q.addGroups bound (queue.take count) {}) ∧
      (q.addGroups bound (queue.take count) {}).work ≤ 2 * queue.length := by
  have hinit : SelectedFrom q queue bound ⟨{}, queue.take count⟩ :=
    ⟨take_sublist count queue, nofun, rfl, Nat.zero_le _⟩
  obtain ⟨hselected, hwork⟩ := hinit.addGroups (Nat.le_refl bound)
  refine ⟨hselected, hwork.trans ?_⟩
  have hlength := (take_sublist count queue).length_le
  simp only [Selection.work, length_nil]
  omega

/-- Where one slot of each faction was free, the teams are balanced with and without the slot that
a faction does not get. -/
theorem settled_of_one {ali horde : SelectionPool} (h : ali.playerCount ≤ 1 ∧ horde.playerCount ≤ 1)
    (hali : aliFree = 1) (hhorde : hordeFree = 1) : Settled aliFree hordeFree ali horde := by
  unfold Settled
  dsimp only
  omega

/-- `FillPlayersToBG` ends, selects groups of both queues within the free slots, and leaves the
teams balanced, both in the slots that it counts with and in those that were free. -/
theorem fillPlayersToBG_balances (q : BattlegroundQueue) (bracketId : BracketId)
    (invitationType : InvitationType) (htype : invitationType ≠ .noBalance)
    (freeSlots : TeamId → Nat)
    (hgroups : ∀ team, ∀ group ∈ q.queuedGroups (bracketId, bgQueueNormal team),
      (q.ginfo group).players ≠ []) :
    let queue := fun team => q.queuedGroups (bracketId, bgQueueNormal team)
    let slots := evenSlots invitationType (UInt32.ofNat (queue 0).length)
      (UInt32.ofNat (queue 1).length) (freeSlots 0) (freeSlots 1)
    ∃ pools : TeamId → SelectionPool,
      (∀ turns, 2 * (queue 0).length + 2 * (queue 1).length < turns →
        q.initPools.fillPlayersToBG turns invitationType bracketId freeSlots =
          some { q with selectionPools := pools }) ∧
      (∀ team, FilledFrom q (queue team) (freeSlots team) (pools team)) ∧
      Settled slots.1 slots.2 (pools 0) (pools 1) ∧
      Settled (freeSlots 0) (freeSlots 1) (pools 0) (pools 1) := by
  intro queue slots
  obtain ⟨aliFree, hordeFree, hslots, hali, hhorde, hsame⟩ := evenSlots_eq invitationType
    (UInt32.ofNat (queue 0).length) (UInt32.ofNat (queue 1).length) (freeSlots 0) (freeSlots 1)
  have hsizes : ∀ team, ∀ group ∈ queue team, 0 < q.initPools.groupSize group :=
    fun team group hmem => length_pos_iff.mpr (hgroups team group hmem)
  have hstart := @selectedFrom_init q.initPools
  obtain ⟨haliFrom, haliWork⟩ := hstart (queue 0) (UInt32.ofNat (queue 0).length).toNat aliFree
  obtain ⟨hhordeFrom, hhordeWork⟩ :=
    hstart (queue 1) (UInt32.ofNat (queue 1).length).toNat hordeFree
  obtain ⟨ali, horde, hbalance, hali', hhorde', hsettled⟩ :=
    @balance_settled q.initPools queue (fun team => if team = 0 then aliFree else hordeFree) _ _
      hsizes haliFrom hhordeFrom _ (Nat.lt_succ_self _)
  have haliFilled := hali'.filled hali
  have hhordeFilled := hhorde'.filled hhorde
  obtain ⟨pools, hset, hpools⟩ : ∃ pools : TeamId → SelectionPool,
      (q.initPools.setPool 0 ali.pool).setPool 1 horde.pool = { q with selectionPools := pools } ∧
        pools 0 = ali.pool ∧ pools 1 = horde.pool := ⟨_, rfl, rfl, rfl⟩
  have hslotsSettled : Settled slots.1 slots.2 (pools 0) (pools 1) := by
    rw [hpools.1, hpools.2]
    have heq : slots = (↑aliFree, ↑hordeFree) := hslots
    rw [heq]
    exact hsettled
  refine ⟨pools, fun turns hturns => ?_, fun team => ?_, hslotsSettled, ?_⟩
  · have hresult : q.initPools.balance aliFree hordeFree turns _ _ = some (ali, horde) :=
      balance_of_le (Nat.succ_le_of_lt (by omega)) hbalance
    unfold fillPlayersToBG
    dsimp only [Team.id]
    rw [if_neg htype]
    have hslots' : evenSlots invitationType
        (UInt32.ofNat (q.initPools.queuedGroups (bracketId, bgQueueNormal 0)).length)
        (UInt32.ofNat (q.initPools.queuedGroups (bracketId, bgQueueNormal 1)).length)
        (freeSlots 0) (freeSlots 1) = (↑aliFree, ↑hordeFree) := hslots
    rw [hslots', ← hset]
    exact congrArg (Option.map _) hresult
  · by_cases hteam : team = 0
    · rw [hteam, hpools.1]
      exact hali'.filled hali
    · rw [eq_otherTeam hteam]
      exact hpools.2 ▸ hhorde'.filled hhorde
  · rw [hpools.1, hpools.2]
    rcases hsame with ⟨haliSame, hhordeSame⟩ | ⟨haliOne, hhordeOne⟩
    · rw [haliSame, hhordeSame] at hsettled
      exact hsettled
    · have haliCount := (hali'.filled hali).bounded
      have hhordeCount := (hhorde'.filled hhorde).bounded
      rw [haliOne] at haliCount ⊢
      rw [hhordeOne] at hhordeCount ⊢
      exact settled_of_one ⟨haliCount, hhordeCount⟩ rfl rfl

/-- A queue with groups of three players and of one for the alliance, and of one for the horde. -/
def waitingQueue : BattlegroundQueue where
  queuedGroups k :=
    if k.1.val = 0 ∧ k.2.val = 2 then [0, 1]
    else if k.1.val = 0 ∧ k.2.val = 3 then [2]
    else []
  groups group :=
    if group = 0 then some { players := [1, 2, 3], team := .alliance }
    else if group = 1 then some { players := [4], team := .alliance }
    else if group = 2 then some { players := [5], team := .horde }
    else none
  nextGroup := 3

example : (waitingQueue.initPools.fillPlayersToBG 7 .balanced 0 fun _ => 5).map
    (fun q => (q.selectionPools 0, q.selectionPools 1)) = some (⟨[1], 1⟩, ⟨[2], 1⟩) := by
  decide +kernel

theorem fillPlayersToBG_balances_waitingQueue :
    ∃ pools : TeamId → SelectionPool,
      (∀ turns, 6 < turns → waitingQueue.initPools.fillPlayersToBG turns .balanced 0 (fun _ => 5) =
        some { waitingQueue with selectionPools := pools }) ∧
      (∀ team, FilledFrom waitingQueue (waitingQueue.queuedGroups (0, bgQueueNormal team)) 5
        (pools team)) ∧
      Settled 5 5 (pools 0) (pools 1) := by
  have hgroups : ∀ team, ∀ group ∈ waitingQueue.queuedGroups (0, bgQueueNormal team),
      (waitingQueue.ginfo group).players ≠ [] := by decide +kernel
  obtain ⟨pools, hturns, hfilled, -, hsettled⟩ :=
    fillPlayersToBG_balances waitingQueue 0 .balanced (by decide) (fun _ => 5) hgroups
  exact ⟨pools, hturns, hfilled, hsettled⟩

end BattlegroundQueue

end TrinityCore.Battlegrounds
