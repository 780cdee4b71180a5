import TrinityCore.Lib.StateMachine
import TrinityCore.Magmaw.Coordinator

/-!
# Stability of the raid plan

One reconciliation applies a desired assignee to every slot. What it desires for the hooks keeps
them apart, and what it desires for a slot whose assignee is still a candidate is that assignee.
-/

namespace TrinityCore.Magmaw

open Encounter List

variable {plan before : RaidPlan} {slot : AssignmentSlot} {pool : CandidatePool}
  {scopeChanged authoritative : Bool} {excluded : List ObjectGuid} {members : List RosterMember}
  {observations : RosterObservations} {rule : AssignmentRule} {guid : ObjectGuid}

/-! ### One assignment -/

@[simp] theorem RaidAssignment.assigneeGuid_apply (assignment : RaidAssignment)
    (desired : ObjectGuid) (scopeChanged : Bool) :
    (assignment.apply desired scopeChanged).assigneeGuid = desired := by
  unfold apply
  split
  · next h => simpa using (Bool.and_eq_true_iff.mp h).2
  · split <;> rfl

/-- The assignee stays, and with it epoch and nonce. -/
theorem RaidAssignment.apply_self (assignment : RaidAssignment) :
    assignment.apply assignment.assigneeGuid false = assignment := by
  unfold apply
  rw [if_pos]
  simp

/-- A new assignee, or a new scope of one, has a new nonce. -/
theorem RaidAssignment.nonce_lt_apply {assignment : RaidAssignment} {desired : ObjectGuid}
    (h : assignment.assigneeGuid ≠ desired ∨
      scopeChanged = true ∧ (assignment.assigneeGuid ≠ 0 ∨ desired ≠ 0)) :
    assignment.nonce < (assignment.apply desired scopeChanged).nonce := by
  have hchanges : ¬(!scopeChanged && assignment.assigneeGuid == desired) = true := by
    cases h with
    | inl h => simp [h]
    | inr h => simp [h.1]
  have hsomeone : (assignment.assigneeGuid != 0 || desired != 0) = true := by
    by_contra hnone
    simp only [Bool.or_eq_true, bne_iff_ne, not_or, not_not] at hnone
    cases h with
    | inl h => exact h (hnone.1.trans hnone.2.symm)
    | inr h => exact h.2.elim (fun hne => hne hnone.1) fun hne => hne hnone.2
  unfold apply
  rw [if_neg hchanges, if_pos hsomeone]
  show assignment.nonce < max 1 (assignment.nonce + 1)
  omega

theorem assignments_reconcileSlot (plan before : RaidPlan) (slot : AssignmentSlot)
    (pool : CandidatePool) (scopeChanged : Bool) (excluded : List ObjectGuid)
    (other : AssignmentSlot) :
    (reconcileSlot plan before slot pool scopeChanged excluded).assignments other =
      if other = slot then
        (plan.assignments slot).apply (desiredAssignee before slot pool scopeChanged excluded)
          scopeChanged
      else plan.assignments other := rfl

/-! ### The desired assignees -/

/-- No excluded player is desired. -/
theorem desiredAssignee_not_mem (h : guid ∈ excluded) (hguid : guid ≠ 0) :
    desiredAssignee before slot pool scopeChanged excluded ≠ guid := by
  unfold desiredAssignee
  dsimp only
  split
  · next hretain =>
    rintro rfl
    simp [h] at hretain
  · unfold firstAvailable
    rintro hfirst
    cases hfind : pool.assignable.find? fun guid => guid != 0 && !excluded.contains guid with
    | none =>
      rw [hfind] at hfirst
      exact hguid hfirst.symm
    | some found =>
      rw [hfind] at hfirst
      have hfound := find?_some hfind
      rw [show found = guid from hfirst] at hfound
      simp [h] at hfound

/-- In an unchanged scope a retainable assignee who is not excluded is desired. -/
theorem desiredAssignee_retained (h : (before.assignments slot).assigneeGuid ∈ pool.retainable)
    (hexcluded : (before.assignments slot).assigneeGuid ∉ excluded) :
    desiredAssignee before slot pool false excluded = (before.assignments slot).assigneeGuid := by
  unfold desiredAssignee
  dsimp only
  rw [if_pos]
  simp [h, hexcluded]

theorem pushAll_candidates (candidates : List RosterMember) :
    (candidates.foldl (CandidatePool.push observations) pool).retainable =
        pool.retainable ++ (candidates.filter fun member =>
          observeRosterMember observations member.guid ≠ .dead ∧
            observeRosterMember observations member.guid ≠ .invalid).map RosterMember.guid ∧
      (candidates.foldl (CandidatePool.push observations) pool).identityCount =
        pool.identityCount + candidates.length := by
  induction candidates generalizing pool with
  | nil => simp
  | cons member rest ih =>
    rw [foldl_cons, (ih).1, (ih).2]
    unfold CandidatePool.push
    dsimp only
    constructor
    · by_cases hlive : observeRosterMember observations member.guid ≠ .dead ∧
        observeRosterMember observations member.guid ≠ .invalid
      · rw [if_pos hlive, filter_cons_of_pos (by simpa using hlive)]
        simp
      · rw [if_neg hlive, filter_cons_of_neg (by simpa using hlive)]
    · rw [length_cons]
      omega

/-- A candidate who is not seen dead or invalid may keep the slot. -/
theorem mem_retainable {mainTankConfigured : Bool} {mainTank : ObjectGuid}
    (hrule : findRule slot = some rule) {member : RosterMember} (hmember : member ∈ members)
    (hcandidate : isCandidate rule slot mainTankConfigured mainTank member = true)
    (hdead : observeRosterMember observations member.guid ≠ .dead)
    (hinvalid : observeRosterMember observations member.guid ≠ .invalid) :
    member.guid ∈ (buildCandidates members observations slot true mainTankConfigured
      mainTank).retainable := by
  unfold buildCandidates
  rw [hrule]
  dsimp only
  rw [(pushAll_candidates _).1]
  refine mem_append_right _ (mem_map_of_mem ?_)
  simp [hmember, hcandidate, hdead, hinvalid]

/-! ### All assignments -/

/-- What a reconciliation that does not pass over the slots leaves in each of them. -/
theorem assignments_reconcileAssignments (hplan : plan.assignments = before.assignments)
    (hgo : (!authoritative && !scopeChanged) = false) (mainTankConfigured : Bool)
    (mainTank : ObjectGuid) {after : RaidPlan}
    (hafter : reconcileAssignments plan before members observations authoritative scopeChanged
      mainTankConfigured mainTank = after) :
    (∀ slot ∈ [AssignmentSlot.fireMageBaiter, .marksmanshipHunterBaiter, .mainPullTank],
      after.assignments slot = (before.assignments slot).apply (desiredAssignee before slot
        (buildCandidates members observations slot authoritative mainTankConfigured mainTank)
        scopeChanged []) scopeChanged) ∧
    after.assignments .hookOne = (before.assignments .hookOne).apply (desiredAssignee before
      .hookOne (buildCandidates members observations .hookOne authoritative false 0) scopeChanged
      (excludedAssignee before .hookTwo)) scopeChanged ∧
    after.assignments .hookTwo = (before.assignments .hookTwo).apply (desiredAssignee before
      .hookTwo (buildCandidates members observations .hookTwo authoritative false 0) scopeChanged
      (excludedAssignee after .hookOne)) scopeChanged ∧
    after.assignments .semanticLaneOwner = (before.assignments .semanticLaneOwner).apply
      (desiredAssignee before .semanticLaneOwner
        (if authoritative then
          [AssignmentSlot.fireMageBaiter, .marksmanshipHunterBaiter].foldl
            (pushBait after observations) {}
        else {}) scopeChanged []) scopeChanged ∧
    after.assignments .bloodlustOwner = (before.assignments .bloodlustOwner).apply
      (desiredAssignee before .bloodlustOwner
        (if (buildCandidates members observations .bloodlustOwner authoritative false
          0).identityCount ≠ 1 then {}
        else buildCandidates members observations .bloodlustOwner authoritative false 0)
        scopeChanged []) scopeChanged := by
  unfold reconcileAssignments at hafter
  rw [hgo] at hafter
  subst hafter
  simp [reconcileBloodlust, reconcileLane, reconcileHooks, reconcileStandardSlots,
    assignments_reconcileSlot, excludedAssignee, pushBait, hplan]

/-- Without authority the assignments of a scope are passed over. -/
theorem reconcileAssignments_of_pass (h : (!authoritative && !scopeChanged) = true)
    {mainTankConfigured : Bool} {mainTank : ObjectGuid} :
    reconcileAssignments plan before members observations authoritative scopeChanged
      mainTankConfigured mainTank = plan := if_pos h

/-- Whether a call is made in another scope than the plan before it. -/
def scopeChanges (current : Option RaidPlan) (facts : MagmawFacts) : Bool :=
  current.isNone || (current.getD {}).lifecycle != facts.lifecycle

variable {current : Option RaidPlan} {facts : MagmawFacts} {board : Blackboard}
  {roster : RosterView}

theorem assignments_finish (plan before : RaidPlan) (facts : MagmawFacts)
    (members : List RosterMember) (observations : RosterObservations) (scopeChanged : Bool) :
    (finalizePlan (observeMangleOwner plan facts members observations) before
      scopeChanged).assignments = plan.assignments := by
  show (observeMangleOwner plan facts members observations).assignments = _
  unfold observeMangleOwner
  dsimp only
  split <;> split <;> rfl

/-- A call leaves the assignments as they are, or reconciles each. -/
theorem reconcile_cases (current : Option RaidPlan) (facts : MagmawFacts) (board : Blackboard)
    (roster : RosterView) :
    (scopeChanges current facts = false ∧
      (reconcile current facts board roster).assignments = (current.getD {}).assignments) ∨
    ∃ authoritative plan after,
      plan.assignments = (current.getD {}).assignments ∧
      (!authoritative && !scopeChanges current facts) = false ∧
      (authoritative = true → (admitCanonicalRoster roster).authoritative = true) ∧
      reconcileAssignments plan (current.getD {}) (canonicalMembers roster.members)
        (buildRosterObservations board) authoritative (scopeChanges current facts)
        (configuredMainTank board).isSome ((configuredMainTank board).getD 0) = after ∧
      (reconcile current facts board roster).assignments = after.assignments := by
  unfold reconcile
  dsimp only
  split
  · next hmatch =>
    left
    simp only [RaidPlan.isMatch, Bool.and_eq_true, beq_iff_eq] at hmatch
    refine ⟨?_, rfl⟩
    unfold scopeChanges
    rw [hmatch.1.2.1.1.1, ← Option.not_isSome, hmatch.1.1]
    simp
  · rw [assignments_finish]
    by_cases hgo : (!sourcesAuthoritative facts board roster (admitCanonicalRoster roster) &&
        !scopeChanges current facts) = true
    · left
      refine ⟨by simpa using (Bool.and_eq_true_iff.mp hgo).2, ?_⟩
      refine Eq.trans (congrArg RaidPlan.assignments (reconcileAssignments_of_pass hgo)) ?_
      rfl
    · right
      refine ⟨_, _, _, ?_, Bool.eq_false_iff.mpr hgo, fun hauthoritative => ?_, rfl, rfl⟩
      · rfl
      · exact (Bool.and_eq_true_iff.mp hauthoritative).2

/-! ### The hooks -/

/-- The two hooks are not the same player. -/
def HooksDistinct (plan : RaidPlan) : Prop :=
  (plan.assignments .hookOne).assigneeGuid ≠ 0 →
    (plan.assignments .hookOne).assigneeGuid ≠ (plan.assignments .hookTwo).assigneeGuid

theorem mem_excludedAssignee :
    guid ∈ excludedAssignee plan slot ↔
      guid ≠ 0 ∧ (plan.assignments slot).assigneeGuid = guid := by
  unfold excludedAssignee
  dsimp only
  split
  · next h =>
    rw [mem_singleton]
    constructor
    · rintro rfl
      exact ⟨by simpa using h, rfl⟩
    · exact fun hand => hand.2.symm
  · next h =>
    simp only [bne_iff_ne, not_not] at h
    simp only [not_mem_nil, false_iff, not_and]
    intro hne heq
    exact hne (heq.symm.trans h)

/-- The second hook is chosen among the players that are not the first one now. -/
theorem hooksDistinct_reconcile (hbefore : HooksDistinct (current.getD {})) :
    HooksDistinct (reconcile current facts board roster) := by
  unfold HooksDistinct
  obtain ⟨-, heq⟩ | ⟨authoritative, plan, after, hplan, hgo, -, hafter, heq⟩ :=
    reconcile_cases current facts board roster
  · rw [heq]
    exact hbefore
  · obtain ⟨-, -, htwo, -, -⟩ := assignments_reconcileAssignments hplan hgo _ _ hafter
    rw [heq, htwo, RaidAssignment.assigneeGuid_apply]
    intro hne
    exact (desiredAssignee_not_mem (mem_excludedAssignee.mpr ⟨hne, rfl⟩) hne).symm

/-! ### Retention -/

/-- A roster member of that GUID matches the rule of a slot. -/
def IsMember (members : List RosterMember) (slot : AssignmentSlot) (guid : ObjectGuid) : Prop :=
  ∃ rule, findRule slot = some rule ∧
    ∃ member ∈ members, member.guid = guid ∧ matchesRule member rule = true

/-- The assignee of a slot is still a matching member of the roster. The main tank is the
configured one if there is one, the lane belongs to one of the baiters, and the owner of
Bloodlust is the only member to match. -/
def StillMatches (before : RaidPlan) (board : Blackboard) (members : List RosterMember)
    (slot : AssignmentSlot) : Prop :=
  let guid := (before.assignments slot).assigneeGuid
  match slot with
  | .mainPullTank =>
    IsMember members slot guid ∧ ∀ tank, configuredMainTank board = some tank → guid = tank
  | .semanticLaneOwner =>
    ∃ bait ∈ [AssignmentSlot.fireMageBaiter, .marksmanshipHunterBaiter],
      (before.assignments bait).assigneeGuid = guid ∧ IsMember members bait guid
  | .bloodlustOwner =>
    IsMember members slot guid ∧ ∀ rule, findRule slot = some rule →
      (members.filter (matchesRule · rule)).length = 1
  | _ => IsMember members slot guid

theorem mem_canonicalMembers {member : RosterMember} :
    member ∈ canonicalMembers members ↔ member ∈ members :=
  (perm_insertionSort _ _).mem_iff

/-- The canonical roster of an authoritative view has no empty GUID. -/
theorem guid_ne_zero (hadmitted : (admitCanonicalRoster roster).authoritative = true)
    (hslot : IsMember roster.members slot guid) : guid ≠ 0 := by
  obtain ⟨rule, -, member, hmember, rfl, -⟩ := hslot
  unfold admitCanonicalRoster at hadmitted
  simp only [Bool.and_eq_true, all_eq_true] at hadmitted
  have hvalid := hadmitted.1.1.2 member (mem_canonicalMembers.mpr hmember)
  unfold validRosterMember at hvalid
  simp only [Bool.and_eq_true, bne_iff_ne] at hvalid
  exact hvalid.1.1.1.1.1

/-- A matching member who is not seen dead or invalid may keep its slot. -/
theorem IsMember.mem_retainable {mainTankConfigured : Bool} {mainTank : ObjectGuid}
    (h : IsMember members slot guid)
    (htank : slot = .mainPullTank → mainTankConfigured = true → guid = mainTank)
    (hdead : observeRosterMember observations guid ≠ .dead)
    (hinvalid : observeRosterMember observations guid ≠ .invalid) :
    guid ∈ (buildCandidates (canonicalMembers members) observations slot true
      mainTankConfigured mainTank).retainable := by
  obtain ⟨rule, hrule, member, hmember, rfl, hmatches⟩ := h
  refine Magmaw.mem_retainable hrule (mem_canonicalMembers.mpr hmember) ?_ hdead hinvalid
  unfold isCandidate
  rw [hmatches, Bool.true_and, Bool.not_eq_true']
  by_contra hnot
  simp only [Bool.not_eq_false, Bool.and_eq_true, beq_iff_eq, bne_iff_ne] at hnot
  exact hnot.2 (htank hnot.1.1 hnot.1.2)

/-- Both baiters may keep the lane. -/
theorem mem_lane {bait : AssignmentSlot}
    (hbait : bait ∈ [AssignmentSlot.fireMageBaiter, .marksmanshipHunterBaiter])
    (hne : (plan.assignments bait).assigneeGuid ≠ 0) :
    (plan.assignments bait).assigneeGuid ∈
      ([AssignmentSlot.fireMageBaiter, .marksmanshipHunterBaiter].foldl
        (pushBait plan observations) {}).retainable := by
  rw [foldl_cons, foldl_cons, foldl_nil]
  unfold pushBait
  rw [mem_cons, mem_singleton] at hbait
  cases hbait with
  | inl h =>
    subst h
    by_cases hother : (plan.assignments .marksmanshipHunterBaiter).assigneeGuid = 0
    · simp [hne, hother]
    · simp [hne, hother]
  | inr h =>
    subst h
    by_cases hother : (plan.assignments .fireMageBaiter).assigneeGuid = 0
    · simp [hne, hother]
    · simp [hne, hother]

/-- One matching member of the roster is one candidate. -/
theorem identityCount_eq_one
    (hone : ∀ rule, findRule .bloodlustOwner = some rule →
      (members.filter (matchesRule · rule)).length = 1) :
    (buildCandidates (canonicalMembers members) observations .bloodlustOwner true false
      0).identityCount = 1 := by
  obtain ⟨rule, hrule⟩ : ∃ rule, findRule .bloodlustOwner = some rule := ⟨_, rfl⟩
  have hcandidate : isCandidate rule .bloodlustOwner false 0 = (matchesRule · rule) := by
    ext1 member
    simp [isCandidate]
  have hperm : ((canonicalMembers members).filter (matchesRule · rule)).Perm
      (members.filter (matchesRule · rule)) :=
    (perm_insertionSort _ members).filter _
  unfold buildCandidates
  rw [hrule]
  dsimp only
  rw [(pushAll_candidates _).2, hcandidate, hperm.length_eq, hone rule hrule]

/-- In an unchanged scope an assignee that still matches and is not seen dead or invalid keeps
its slot, its epoch and its nonce. -/
theorem retained (hbefore : HooksDistinct (current.getD {}))
    (hscope : scopeChanges current facts = false)
    (hmatches : StillMatches (current.getD {}) board roster.members slot)
    (hdead : observeRosterMember (buildRosterObservations board)
      ((current.getD {}).assignments slot).assigneeGuid ≠ .dead)
    (hinvalid : observeRosterMember (buildRosterObservations board)
      ((current.getD {}).assignments slot).assigneeGuid ≠ .invalid) :
    (reconcile current facts board roster).assignments slot =
      (current.getD {}).assignments slot := by
  obtain ⟨-, heq⟩ | ⟨authoritative, plan, after, hplan, hgo, hadmitted, hafter, heq⟩ :=
    reconcile_cases current facts board roster
  · rw [heq]
  · rw [hscope] at hgo hafter
    have hauthoritative : authoritative = true := by simpa using hgo
    subst hauthoritative
    obtain ⟨hstandard, hone, htwo, hlane, hbloodlust⟩ :=
      assignments_reconcileAssignments hplan hgo _ _ hafter
    -- It is enough that the assignee is desired.
    have hkeep : ∀ {desired : ObjectGuid}, desired =
        ((current.getD {}).assignments slot).assigneeGuid →
        ((current.getD {}).assignments slot).apply desired false =
          (current.getD {}).assignments slot := by
      rintro desired rfl
      exact RaidAssignment.apply_self _
    have hbait : ∀ bait ∈ [AssignmentSlot.fireMageBaiter, .marksmanshipHunterBaiter],
        IsMember roster.members bait ((current.getD {}).assignments bait).assigneeGuid →
        observeRosterMember (buildRosterObservations board)
          ((current.getD {}).assignments bait).assigneeGuid ≠ .dead →
        observeRosterMember (buildRosterObservations board)
          ((current.getD {}).assignments bait).assigneeGuid ≠ .invalid →
        (after.assignments bait).assigneeGuid =
          ((current.getD {}).assignments bait).assigneeGuid := by
      intro bait hmem hmember hdead hinvalid
      have hslot := hstandard bait (by
        rw [mem_cons, mem_singleton] at hmem
        cases hmem with
        | inl h => simp [h]
        | inr h => simp [h])
      rw [hslot, RaidAssignment.assigneeGuid_apply]
      refine desiredAssignee_retained (hmember.mem_retainable ?_ hdead hinvalid)
        not_mem_nil
      rintro rfl
      simp at hmem
    rw [heq]
    cases slot with
    | fireMageBaiter =>
      rw [hstandard _ (by simp)]
      refine hkeep (desiredAssignee_retained ?_ not_mem_nil)
      exact IsMember.mem_retainable hmatches nofun hdead hinvalid
    | marksmanshipHunterBaiter =>
      rw [hstandard _ (by simp)]
      refine hkeep (desiredAssignee_retained ?_ not_mem_nil)
      exact IsMember.mem_retainable hmatches nofun hdead hinvalid
    | mainPullTank =>
      rw [hstandard _ (by simp)]
      refine hkeep (desiredAssignee_retained ?_ not_mem_nil)
      refine IsMember.mem_retainable hmatches.1 (fun _ hconfigured => ?_) hdead hinvalid
      obtain ⟨tank, htank⟩ := Option.isSome_iff_exists.mp hconfigured
      rw [htank]
      exact hmatches.2 tank htank
    | hookOne =>
      rw [hone]
      refine hkeep (desiredAssignee_retained ?_ fun hmem => ?_)
      · exact IsMember.mem_retainable hmatches nofun hdead hinvalid
      · obtain ⟨hne, htwo⟩ := mem_excludedAssignee.mp hmem
        exact hbefore hne htwo.symm
    | hookTwo =>
      rw [htwo]
      refine hkeep (desiredAssignee_retained ?_ fun hmem => ?_)
      · exact IsMember.mem_retainable hmatches nofun hdead hinvalid
      · obtain ⟨hne, hfirst⟩ := mem_excludedAssignee.mp hmem
        rw [hone, RaidAssignment.assigneeGuid_apply] at hfirst
        exact desiredAssignee_not_mem (mem_excludedAssignee.mpr ⟨hne, rfl⟩) hne hfirst
    | semanticLaneOwner =>
      obtain ⟨bait, hmem, hheld, hmember⟩ := hmatches
      have hne := guid_ne_zero (hadmitted rfl) hmember
      have hafterBait : (after.assignments bait).assigneeGuid =
          ((current.getD {}).assignments .semanticLaneOwner).assigneeGuid := by
        rw [hbait bait hmem (hheld ▸ hmember) (hheld ▸ hdead) (hheld ▸ hinvalid), hheld]
      rw [hlane]
      refine hkeep (desiredAssignee_retained ?_ not_mem_nil)
      rw [if_pos rfl, ← hafterBait]
      exact mem_lane hmem (hafterBait ▸ hne)
    | bloodlustOwner =>
      rw [hbloodlust, if_neg (not_not.mpr (identityCount_eq_one hmatches.2))]
      refine hkeep (desiredAssignee_retained ?_ not_mem_nil)
      exact IsMember.mem_retainable hmatches.1 nofun hdead hinvalid

/-! ### Nonces -/

theorem exists_desired (hplan : plan.assignments = before.assignments)
    (hgo : (!authoritative && !scopeChanged) = false) {mainTankConfigured : Bool}
    {mainTank : ObjectGuid} {after : RaidPlan}
    (hafter : reconcileAssignments plan before members observations authoritative scopeChanged
      mainTankConfigured mainTank = after) (slot : AssignmentSlot) :
    ∃ desired, after.assignments slot = (before.assignments slot).apply desired scopeChanged := by
  obtain ⟨hstandard, hone, htwo, hlane, hbloodlust⟩ :=
    assignments_reconcileAssignments hplan hgo _ _ hafter
  cases slot with
  | fireMageBaiter => exact ⟨_, hstandard _ (by simp)⟩
  | marksmanshipHunterBaiter => exact ⟨_, hstandard _ (by simp)⟩
  | mainPullTank => exact ⟨_, hstandard _ (by simp)⟩
  | hookOne => exact ⟨_, hone⟩
  | hookTwo => exact ⟨_, htwo⟩
  | semanticLaneOwner => exact ⟨_, hlane⟩
  | bloodlustOwner => exact ⟨_, hbloodlust⟩

/-- A slot whose assignee changes, or whose scope does while it is or becomes assigned, gets a
greater nonce. -/
theorem nonce_lt_reconcile
    (h : ((current.getD {}).assignments slot).assigneeGuid ≠
        ((reconcile current facts board roster).assignments slot).assigneeGuid ∨
      scopeChanges current facts = true ∧
        (((current.getD {}).assignments slot).assigneeGuid ≠ 0 ∨
          ((reconcile current facts board roster).assignments slot).assigneeGuid ≠ 0)) :
    ((current.getD {}).assignments slot).nonce <
      ((reconcile current facts board roster).assignments slot).nonce := by
  obtain ⟨hsame, heq⟩ | ⟨authoritative, plan, after, hplan, hgo, -, hafter, heq⟩ :=
    reconcile_cases current facts board roster
  · rw [heq, hsame] at h
    simp at h
  · obtain ⟨desired, hdesired⟩ := exists_desired hplan hgo hafter slot
    rw [heq, hdesired, RaidAssignment.assigneeGuid_apply] at h
    rw [heq, hdesired]
    exact RaidAssignment.nonce_lt_apply h

/-! ### Generations -/

/-- What a plan publishes, up to its own generation and the revision of its source. -/
def RaidPlan.published (plan : RaidPlan) : RaidPlan :=
  { plan with generation := 0, sourceRevision := 0 }

theorem assignmentsChanged_iff (before after : RaidPlan) :
    assignmentsChanged before after = true ↔ before.assignments ≠ after.assignments := by
  unfold assignmentsChanged
  rw [any_eq_true, Function.ne_iff]
  constructor
  · rintro ⟨slot, -, hne⟩
    exact ⟨slot, by simpa using hne⟩
  · rintro ⟨slot, hne⟩
    refine ⟨slot, ?_, by simpa using hne⟩
    cases slot <;> simp [AssignmentSlot.all]

theorem published_eq_iff (left right : RaidPlan) :
    left.published = right.published ↔
      left.lifecycle = right.lifecycle ∧ left.rosterGeneration = right.rosterGeneration ∧
        left.rosterExpectedSize = right.rosterExpectedSize ∧
        left.rosterMode = right.rosterMode ∧
        left.rosterFingerprint = right.rosterFingerprint ∧
        left.authoritative = right.authoritative ∧
        left.mangleOwnerGuid = right.mangleOwnerGuid ∧
        left.mangleOwnerAuthoritative = right.mangleOwnerAuthoritative ∧
        left.assignments = right.assignments := by
  unfold RaidPlan.published
  rw [RaidPlan.mk.injEq]
  simp

/-- The generation of a finished plan goes up by one exactly when the scope or something
published has changed. -/
theorem generation_finalizePlan (plan before : RaidPlan) {scopeChanged : Bool}
    (hscope : scopeChanged = false → before.lifecycle = plan.lifecycle) :
    (scopeChanged = true ∨ before.published ≠ plan.published) ∧
        (finalizePlan plan before scopeChanged).generation = before.generation + 1 ∨
      ¬(scopeChanged = true ∨ before.published ≠ plan.published) ∧
        (finalizePlan plan before scopeChanged).generation = before.generation := by
  have hchanged : (scopeChanged || before.rosterGeneration != plan.rosterGeneration
      || before.rosterExpectedSize != plan.rosterExpectedSize
      || before.rosterMode != plan.rosterMode
      || before.rosterFingerprint != plan.rosterFingerprint
      || before.authoritative != plan.authoritative
      || before.mangleOwnerAuthoritative != plan.mangleOwnerAuthoritative
      || before.mangleOwnerGuid != plan.mangleOwnerGuid
      || assignmentsChanged before plan) = true ↔
      (scopeChanged = true ∨ before.published ≠ plan.published) := by
    rw [Ne, published_eq_iff]
    simp only [Bool.or_eq_true, bne_iff_ne, assignmentsChanged_iff]
    cases scopeChanged with
    | true => simp
    | false =>
      have hlifecycle : before.lifecycle = plan.lifecycle := hscope rfl
      tauto
  rw [← hchanged]
  unfold finalizePlan
  dsimp only
  split
  · next h => exact Or.inl ⟨h, rfl⟩
  · next h => exact Or.inr ⟨h, rfl⟩

theorem lifecycle_reconcileSlot :
    (reconcileSlot plan before slot pool scopeChanged excluded).lifecycle = plan.lifecycle := rfl

theorem lifecycle_reconcileAssignments (mainTankConfigured : Bool) (mainTank : ObjectGuid) :
    (reconcileAssignments plan before members observations authoritative scopeChanged
      mainTankConfigured mainTank).lifecycle = plan.lifecycle := by
  unfold reconcileAssignments
  split
  · rfl
  · simp only [reconcileBloodlust, reconcileLane, reconcileHooks, reconcileStandardSlots,
      foldl_cons, foldl_nil, lifecycle_reconcileSlot]

theorem lifecycle_observeMangleOwner :
    (observeMangleOwner plan facts members observations).lifecycle = plan.lifecycle := by
  unfold observeMangleOwner
  dsimp only
  split <;> split <;> rfl

/-- The plan that a call with new observations finishes. -/
theorem reconcile_finishes (current : Option RaidPlan) (facts : MagmawFacts) (board : Blackboard)
    (roster : RosterView) :
    (current.isSome = true ∧ reconcile current facts board roster = current.getD {}) ∨
    ∃ plan, plan.lifecycle = facts.lifecycle ∧ reconcile current facts board roster =
      finalizePlan plan (current.getD {}) (scopeChanges current facts) := by
  unfold reconcile
  dsimp only
  split
  · next hmatch =>
    simp only [Bool.and_eq_true] at hmatch
    exact Or.inl ⟨hmatch.1.1, rfl⟩
  · refine Or.inr ⟨_, ?_, rfl⟩
    rw [lifecycle_observeMangleOwner, lifecycle_reconcileAssignments]

/-- The generation of the plan goes up when it is the first one or publishes something new, and
stays otherwise. -/
theorem generation_reconcile (current : Option RaidPlan) (facts : MagmawFacts)
    (board : Blackboard) (roster : RosterView) :
    (current = none ∨
        (current.getD {}).published ≠ (reconcile current facts board roster).published) ∧
      (reconcile current facts board roster).generation = (current.getD {}).generation + 1 ∨
    ¬(current = none ∨
        (current.getD {}).published ≠ (reconcile current facts board roster).published) ∧
      (reconcile current facts board roster).generation = (current.getD {}).generation := by
  obtain ⟨hsome, heq⟩ | ⟨plan, hlifecycle, heq⟩ := reconcile_finishes current facts board roster
  · rw [heq]
    refine Or.inr ⟨?_, rfl⟩
    rintro (rfl | hne)
    · exact absurd hsome nofun
    · exact hne rfl
  · have hpublished : (finalizePlan plan (current.getD {})
        (scopeChanges current facts)).published = plan.published := rfl
    have hscope : scopeChanges current facts = true ↔
        current = none ∨ (current.getD {}).lifecycle ≠ plan.lifecycle := by
      unfold scopeChanges
      rw [hlifecycle]
      simp
    have hiff : (scopeChanges current facts = true ∨
        (current.getD {}).published ≠ plan.published) ↔
        (current = none ∨ (current.getD {}).published ≠ plan.published) := by
      have hlifecycle' : (current.getD {}).lifecycle ≠ plan.lifecycle →
          (current.getD {}).published ≠ plan.published := fun hne heq =>
        hne ((published_eq_iff _ _).mp heq).1
      rw [hscope]
      tauto
    rw [heq, hpublished, ← hiff]
    refine generation_finalizePlan plan _ fun hfalse => ?_
    by_contra hne
    cases hfalse.symm.trans (hscope.mpr (Or.inr hne))

/-! ### The order of the members -/

theorem RosterMember.key_injective : Function.Injective RosterMember.key := by
  intro left right h
  unfold RosterMember.key at h
  simp only [EmbeddingLike.apply_eq_iff_eq, Prod.mk.injEq, UInt64.toNat_inj] at h
  cases left
  cases right
  simp_all

theorem pairwise_canonicalMembers (members : List RosterMember) :
    (canonicalMembers members).Pairwise fun left right => left.key ≤ right.key := by
  have htotal : Std.Total fun left right : RosterMember => left.key ≤ right.key :=
    ⟨fun left right => le_total left.key right.key⟩
  have htrans : IsTrans RosterMember fun left right => left.key ≤ right.key :=
    ⟨fun _ _ _ h h' => le_trans h h'⟩
  exact pairwise_insertionSort _ members

/-- The canonical roster does not depend on the order of the members. -/
theorem canonicalMembers_perm {members' : List RosterMember} (h : members'.Perm members) :
    canonicalMembers members' = canonicalMembers members := by
  have hperm : (canonicalMembers members').Perm (canonicalMembers members) :=
    ((perm_insertionSort _ members').trans h).trans (perm_insertionSort _ members).symm
  refine hperm.eq_of_pairwise ?_ (pairwise_canonicalMembers members')
    (pairwise_canonicalMembers members)
  intro left right _ _ hle hge
  exact RosterMember.key_injective (le_antisymm hle hge)

theorem admitCanonicalRoster_perm {members' : List RosterMember}
    (h : members'.Perm roster.members) :
    admitCanonicalRoster { roster with members := members' } = admitCanonicalRoster roster := by
  unfold admitCanonicalRoster
  dsimp only
  rw [canonicalMembers_perm h]
  rfl

/-- A call does not depend on the order of the members. -/
theorem reconcile_perm {members' : List RosterMember} (h : members'.Perm roster.members) :
    reconcile current facts board { roster with members := members' } =
      reconcile current facts board roster := by
  unfold reconcile
  rw [admitCanonicalRoster_perm h]
  rfl

/-! ### Runs -/

theorem hooksDistinct_run (calls : List Observation) :
    HooksDistinct ((StateMachine.run coordinate none calls).getD {}) := by
  apply @StateMachine.run_invariant _ _ coordinate none fun current => HooksDistinct (current.getD {})
  · exact fun hne => absurd rfl hne
  · intro current call hbefore
    exact hooksDistinct_reconcile hbefore

/-- After any calls, one more keeps the hooks apart, leaves every assignee that still matches
in an unchanged scope in its place, raises the nonces of what changes, raises the generation when
what is published changes, and does not depend on the order of the members. -/
theorem coordinator_assignments (calls : List Observation) (call : Observation) :
    let current := StateMachine.run coordinate none calls
    let before := current.getD {}
    let after := reconcile current call.facts call.board call.roster
    let observations := buildRosterObservations call.board
    HooksDistinct after ∧
      (∀ slot, scopeChanges current call.facts = false →
        StillMatches before call.board call.roster.members slot →
        observeRosterMember observations (before.assignments slot).assigneeGuid ≠ .dead →
        observeRosterMember observations (before.assignments slot).assigneeGuid ≠ .invalid →
        after.assignments slot = before.assignments slot) ∧
      (∀ slot, ((before.assignments slot).assigneeGuid ≠ (after.assignments slot).assigneeGuid ∨
          scopeChanges current call.facts = true ∧ ((before.assignments slot).assigneeGuid ≠ 0 ∨
            (after.assignments slot).assigneeGuid ≠ 0)) →
        (before.assignments slot).nonce < (after.assignments slot).nonce) ∧
      (before.generation < after.generation ↔
        current = none ∨ before.published ≠ after.published) ∧
      ∀ members, members.Perm call.roster.members →
        reconcile current call.facts call.board { call.roster with members := members } =
          after := by
  intro current before after observations
  have hdistinct : HooksDistinct before := hooksDistinct_run calls
  refine ⟨hooksDistinct_reconcile hdistinct, ?_, fun slot h => nonce_lt_reconcile h, ?_,
    fun members h => reconcile_perm h⟩
  · intro slot hscope hmatches hdead hinvalid
    exact retained hdistinct hscope hmatches hdead hinvalid
  · have hgeneration := generation_reconcile current call.facts call.board call.roster
    constructor
    · intro hlt
      cases hgeneration with
      | inl h => exact h.1
      | inr h => exact absurd h.2 (Nat.ne_of_gt hlt)
    · intro hchanged
      cases hgeneration with
      | inl h =>
        rw [show after.generation = before.generation + 1 from h.2]
        exact Nat.lt_succ_self _
      | inr h => exact absurd hchanged h.1

/-- Ten players, the second of them of the given specialization. -/
def exampleRoster (classSpec : String) : RosterView :=
  { generation := 1
    expectedSize := 10
    mode := .normal10
    authoritative := true
    members := (RosterMember.mk 1 "a" "dps" "elemental_shaman" true true ::
      RosterMember.mk 2 "b" "dps" classSpec true true ::
      ([(3, "c"), (4, "d"), (5, "e"), (6, "f"), (7, "g"), (8, "h"), (9, "i"), (10, "j")].map
        fun slot => RosterMember.mk slot.1 slot.2 "healer" "holy_priest" true true)) }

/-- An authoritative call that sees the first of these players alive. -/
def exampleCall (revision : UInt64) (classSpec : String) : Observation :=
  { facts :=
      { observationRevision := revision
        lifecycleAuthoritative := true
        projectionAuthoritative := true
        ownsNode := .true }
    board :=
      { revision := revision
        players := [{ guid := 1, kind := .player, alive := true }] }
    roster := exampleRoster classSpec }

/-- A second elemental shaman on the roster takes Bloodlust from the first, who is still a
matching and living member; a new revision of the source alone is published in the same
generation. -/
theorem bloodlust_lost_and_revision_published :
    (let current := StateMachine.run coordinate none [exampleCall 1 "fire_mage"]
    let call := exampleCall 2 "elemental_shaman"
    let after := reconcile current call.facts call.board call.roster
    scopeChanges current call.facts = false ∧
      IsMember call.roster.members .bloodlustOwner 1 ∧
      observeRosterMember (buildRosterObservations call.board) 1 = .alive ∧
      ((current.getD {}).assignments .bloodlustOwner).assigneeGuid = 1 ∧
      (after.assignments .bloodlustOwner).assigneeGuid = 0) ∧
    (let current := StateMachine.run coordinate none [exampleCall 1 "fire_mage"]
    let call := exampleCall 2 "fire_mage"
    let after := reconcile current call.facts call.board call.roster
    after.sourceRevision ≠ (current.getD {}).sourceRevision ∧
      after.generation = (current.getD {}).generation) := by
  refine ⟨⟨by decide +kernel, ?_, by decide +kernel, by decide +kernel, by decide +kernel⟩,
    by decide +kernel⟩
  exact ⟨⟨.bloodlustOwner, "dps", "elemental_shaman"⟩, by decide +kernel,
    ⟨1, "a", "dps", "elemental_shaman", true, true⟩, List.mem_cons_self, by decide +kernel⟩

end TrinityCore.Magmaw
