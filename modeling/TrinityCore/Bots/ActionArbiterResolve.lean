import TrinityCore.Bots.ActionArbiter

/-!
# One resolution

What one `Resolve` guarantees whatever the callbacks do: committed candidates own disjoint
lanes, no candidate is attempted twice or past a mask, nothing is attempted after a terminal
outcome, and only the callbacks themselves touch the lifecycle of a key that was not
submitted.
-/

namespace TrinityCore.Bots.ActionArbitration

open List

variable {World : Type}

/-- The hard masks let a candidate through. -/
structure Frame.Admits (frame : Frame) (candidate : Proposal) : Prop where
  admitted : frame.admissionReason candidate = ""
  allowed : candidate.allowed = true
  unexpired : ¬ (candidate.expiresAtMs ≠ 0 ∧ candidate.expiresAtMs ≤ frame.nowMs)
  released : ¬ (frame.lifecycle candidate.key).retryAfterMs > frame.nowMs
  free : conflicts candidate.requiredResources frame.lastResolution.claimedResources = false

theorem mask?_eq_none {frame : Frame} {candidate : Proposal}
    (h : frame.mask? candidate = none) : frame.Admits candidate := by
  unfold Frame.mask? at h
  split at h
  · nomatch h
  next hadmitted =>
  split at h
  · nomatch h
  next hallowed =>
  split at h
  · nomatch h
  next hunexpired =>
  split at h
  · nomatch h
  next hreleased =>
  split at h
  · nomatch h
  next hfree =>
  exact
    { admitted := not_not.mp hadmitted
      allowed := by simpa using hallowed
      unexpired := hunexpired
      released := hreleased
      free := by simpa using hfree }

variable (frame : Frame) (candidates : List (Accepted World))

@[simp] theorem lifecycle_setLifecycle (key : String) (lifecycle : Lifecycle) :
    (frame.setLifecycle key lifecycle).lifecycle key = lifecycle :=
  Std.ExtTreeMap.getD_insert_self

variable {key : String} {attempted : Attempted World}

theorem getElem?_setLifecycle {key' : String} (lifecycle : Lifecycle) (hne : key ≠ key') :
    (frame.setLifecycle key lifecycle).lifecycles[key']? = frame.lifecycles[key']? := by
  simp [Frame.setLifecycle, Std.ExtTreeMap.getElem?_insert, hne]

/-- Selecting a candidate does not change what the masks say of it. -/
theorem Frame.Admits.select {frame : Frame} {candidate : Proposal} (h : frame.Admits candidate) :
    (frame.select candidate).Admits candidate where
  admitted := h.admitted
  allowed := h.allowed
  unexpired := h.unexpired
  released := by
    rw [Frame.select, lifecycle_setLifecycle]
    exact h.released
  free := h.free

/-! ### The induction over the loop -/

/-- What holds of an empty round and survives a masked candidate, a terminal attempt and an
attempt that lets the loop go on holds of every resolution. -/
theorem resolveLoop_induction
    {motive : List (Accepted World) → Frame → Resolved World → Prop}
    (nil : ∀ frame world, motive [] frame { frame := frame, world := world })
    (masked : ∀ candidate rest (frame : Frame) status reason resolved,
      motive rest ((frame.propose candidate.toProposal).trace candidate.toProposal status reason
        .deferred) resolved →
      motive (candidate :: rest) frame resolved)
    (stopped : ∀ candidate rest (frame : Frame) (world : World) (attempted : Attempted World),
      attempted = (frame.propose candidate.toProposal).attempt candidate world →
      attempted.frame.Admits candidate.toProposal →
      attempted.reply.outcome.result = .terminal →
      motive (candidate :: rest) frame
        { frame := attempted.after, world := attempted.reply.world, attempts := [attempted] })
    (attempted : ∀ candidate rest (frame : Frame) (world : World) (attempted : Attempted World)
      (resolved : Resolved World),
      attempted = (frame.propose candidate.toProposal).attempt candidate world →
      attempted.frame.Admits candidate.toProposal →
      attempted.reply.outcome.result ≠ .terminal →
      motive rest attempted.after resolved →
      motive (candidate :: rest) frame
        { resolved with attempts := attempted :: resolved.attempts })
    (candidates : List (Accepted World)) (frame : Frame) (world : World) :
    motive candidates frame (resolveLoop candidates frame world) := by
  induction candidates generalizing frame world with
  | nil => exact nil frame world
  | cons candidate rest ih =>
    unfold resolveLoop
    cases hmask : (frame.propose candidate.toProposal).mask? candidate.toProposal with
    | some masks =>
      simp only [hmask]
      exact masked candidate rest frame masks.1 masks.2 _ (ih _ world)
    | none =>
      have hadmits := (mask?_eq_none hmask).select
      simp only [hmask]
      split
      · next hterminal => exact stopped candidate rest frame world _ rfl hadmits hterminal
      · next hgoes => exact attempted candidate rest frame world _ _ rfl hadmits hgoes (ih _ _)

/-! ### What one attempt changes -/

theorem lastResolution_call (call : KernelCall) :
    (frame.call call).lastResolution = frame.lastResolution := by
  cases call <;> rfl

theorem lastResolution_calls (calls : List KernelCall) :
    (calls.foldl Frame.call frame).lastResolution = frame.lastResolution := by
  induction calls generalizing frame with
  | nil => rfl
  | cons call calls ih => rw [foldl_cons, ih, lastResolution_call]

/-- The attempt committed. -/
def Attempted.Commits (attempted : Attempted World) : Prop :=
  attempted.reply.outcome.result = .committed

instance (attempted : Attempted World) : Decidable attempted.Commits :=
  inferInstanceAs (Decidable (_ = _))

/-- The lanes and the key of a candidate join the resolution when it commits. -/
theorem after_of_commits (h : attempted.Commits) :
    attempted.after.lastResolution.claimedResources =
        attempted.frame.lastResolution.claimedResources |||
          attempted.candidate.requiredResources ∧
      attempted.after.lastResolution.committedCandidates =
        attempted.frame.lastResolution.committedCandidates ++ [attempted.candidate.key] := by
  have hcalls := lastResolution_calls attempted.frame attempted.reply.calls
  simp only [Attempted.after, Frame.conclude, Frame.trace, Frame.observe, Frame.setLifecycle,
    hcalls, show attempted.reply.outcome.result = .committed from h, and_self]

theorem after_of_not_commits (h : ¬ attempted.Commits) :
    attempted.after.lastResolution.claimedResources =
        attempted.frame.lastResolution.claimedResources ∧
      attempted.after.lastResolution.committedCandidates =
        attempted.frame.lastResolution.committedCandidates := by
  have hcalls := lastResolution_calls attempted.frame attempted.reply.calls
  unfold Attempted.Commits at h
  cases hresult : attempted.reply.outcome.result with
  | committed => exact absurd hresult h
  | _ =>
    simp only [Attempted.after, Frame.conclude, Frame.trace, Frame.observe, Frame.setLifecycle,
      hcalls, hresult, and_self]

/-- What one call does to the lifecycle of `key`. -/
def KernelCall.onLifecycle (key : String) (lifecycle : Option Lifecycle) :
    KernelCall → Option Lifecycle
  | .resetLifecycleHistory _ => none
  | .observe observed outcome nowMs retryBaseMs retryMaxMs escalateAfter =>
    if observed = key then
      some ((lifecycle.getD {}).observe outcome nowMs retryBaseMs retryMaxMs escalateAfter)
    else lifecycle
  | .markProgress observed nowMs reason =>
    if observed = key then
      some ((lifecycle.getD {}).observe (.progressed reason) nowMs 100 3000 5)
    else lifecycle
  | _ => lifecycle

/-- The call resets or observes the lifecycle of `key`. -/
def KernelCall.Touches (key : String) : KernelCall → Prop
  | .resetLifecycleHistory _ => True
  | .observe observed .. => observed = key
  | .markProgress observed .. => observed = key
  | _ => False

theorem foldl_onLifecycle_of_not_touches {calls : List KernelCall}
    (h : ∀ call ∈ calls, ¬ call.Touches key) (lifecycle : Option Lifecycle) :
    calls.foldl (KernelCall.onLifecycle key) lifecycle = lifecycle := by
  induction calls with
  | nil => rfl
  | cons call calls ih =>
    have hcall : call.onLifecycle key lifecycle = lifecycle := by
      have hnot := h call mem_cons_self
      cases call with
      | resetLifecycleHistory nowMs => exact absurd trivial hnot
      | observe => exact if_neg hnot
      | markProgress => exact if_neg hnot
      | _ => rfl
    rw [foldl_cons, hcall]
    exact ih fun other hmem => h other (mem_cons_of_mem call hmem)

theorem getElem?_observe (key observed : String) (outcome : Outcome) (nowMs : UInt64)
    (retryBaseMs retryMaxMs : UInt32) (escalateAfter : UInt8) :
    (frame.observe observed outcome nowMs retryBaseMs retryMaxMs escalateAfter).lifecycles[key]? =
      if observed = key then
        some (((frame.lifecycles[key]?).getD {}).observe outcome nowMs retryBaseMs retryMaxMs
          escalateAfter)
      else frame.lifecycles[key]? := by
  by_cases hkey : observed = key
  · subst hkey
    simp [Frame.observe, Frame.setLifecycle, Frame.lifecycle, Std.ExtTreeMap.getD_eq_getD_getElem?]
  · rw [if_neg hkey]
    exact getElem?_setLifecycle frame _ hkey

theorem getElem?_call (key : String) (call : KernelCall) :
    (frame.call call).lifecycles[key]? = call.onLifecycle key frame.lifecycles[key]? := by
  cases call with
  | resetLifecycleHistory nowMs => exact Std.ExtTreeMap.getElem?_empty
  | observe observed outcome nowMs retryBaseMs retryMaxMs escalateAfter =>
    exact getElem?_observe frame key observed outcome nowMs retryBaseMs retryMaxMs escalateAfter
  | markProgress observed nowMs reason =>
    exact getElem?_observe frame key observed (.progressed reason) nowMs 100 3000 5
  | setAdmissionPolicy policy => rfl
  | setCandidateAdmission observed admission => rfl

theorem getElem?_calls (key : String) (calls : List KernelCall) :
    (calls.foldl Frame.call frame).lifecycles[key]? =
      calls.foldl (KernelCall.onLifecycle key) frame.lifecycles[key]? := by
  induction calls generalizing frame with
  | nil => rfl
  | cons call calls ih => rw [foldl_cons, ih, getElem?_call, foldl_cons]

/-- Concluding an attempt touches the lifecycle of its own key only. -/
theorem getElem?_conclude (candidate : Proposal) (outcome : Outcome) (hne : candidate.key ≠ key) :
    (frame.conclude candidate outcome).lifecycles[key]? = frame.lifecycles[key]? := by
  have hobserve : (frame.conclude candidate outcome).lifecycles =
      (frame.observe candidate.key outcome frame.nowMs candidate.retryBaseMs
        candidate.retryMaxMs candidate.escalateAfter).lifecycles := by
    unfold Frame.conclude
    cases outcome.result <;> rfl
  rw [hobserve]
  exact getElem?_setLifecycle frame _ hne

/-- An attempt touches another key's lifecycle only through the calls of its callback. -/
theorem getElem?_after (candidate : Accepted World) (world : World) (hne : candidate.key ≠ key) :
    ((frame.propose candidate.toProposal).attempt candidate world).after.lifecycles[key]? =
      ((frame.propose candidate.toProposal).attempt candidate world).reply.calls.foldl
        (KernelCall.onLifecycle key) frame.lifecycles[key]? := by
  rw [Attempted.after, getElem?_conclude _ _ _ (by exact hne), getElem?_calls]
  congr 1
  exact (getElem?_setLifecycle _ _ hne).trans (getElem?_setLifecycle _ _ hne)

/-! ### What a resolution does -/

/-- The attempts that committed. -/
def committed (attempts : List (Attempted World)) : List (Attempted World) :=
  attempts.filter fun attempted => decide attempted.Commits

/-- The lanes of some attempts, joined to those claimed before. -/
def joinLanes (claimed : ResourceMask) (attempts : List (Attempted World)) : ResourceMask :=
  attempts.foldl (fun mask attempted => mask ||| attempted.candidate.requiredResources) claimed

theorem conflicts_or {lanes left right : ResourceMask} :
    conflicts lanes (left ||| right) = false ↔
      conflicts lanes left = false ∧ conflicts lanes right = false := by
  have hdistrib : lanes &&& (left ||| right) = lanes &&& left ||| lanes &&& right := by
    rw [← UInt16.toBitVec_inj]
    exact BitVec.and_or_distrib_left
  simp only [conflicts, bne_eq_false_iff_eq, hdistrib, UInt16.or_eq_zero_iff]

theorem conflicts_comm (left right : ResourceMask) : conflicts left right = conflicts right left := by
  rw [conflicts, conflicts, UInt16.and_comm]

theorem committed_cons_of_commits (h : attempted.Commits) (attempts : List (Attempted World)) :
    committed (attempted :: attempts) = attempted :: committed attempts :=
  filter_cons_of_pos (decide_eq_true h)

theorem committed_cons_of_not_commits (h : ¬ attempted.Commits)
    (attempts : List (Attempted World)) :
    committed (attempted :: attempts) = committed attempts :=
  filter_cons_of_neg (by simpa using h)

theorem not_commits_of_terminal (h : attempted.reply.outcome.result = .terminal) :
    ¬ attempted.Commits := by
  rw [Attempted.Commits, h]
  decide

/-- The candidates attempted are candidates of the round, in its order. -/
theorem attempted_sublist (frame : Frame) (world : World) :
    ((resolveLoop candidates frame world).attempts.map Attempted.candidate).Sublist
      candidates := by
  apply resolveLoop_induction (motive := fun candidates _ resolved =>
    (resolved.attempts.map Attempted.candidate).Sublist candidates)
  · intro frame world
    exact List.Sublist.slnil
  · intro candidate rest frame status reason resolved ih
    exact ih.cons candidate
  · rintro candidate rest frame world attempted rfl - -
    exact (nil_sublist rest).cons_cons candidate
  · rintro candidate rest frame world attempted resolved rfl - - ih
    exact ih.cons_cons candidate

/-- Every attempt is made past the masks. -/
theorem admits_of_attempted (frame : Frame) (world : World) :
    ∀ attempted ∈ (resolveLoop candidates frame world).attempts,
      attempted.frame.Admits attempted.candidate.toProposal := by
  apply resolveLoop_induction (motive := fun _ _ resolved =>
    ∀ attempted ∈ resolved.attempts, attempted.frame.Admits attempted.candidate.toProposal)
  · intro frame world attempted hmem
    nomatch hmem
  · intro candidate rest frame status reason resolved ih
    exact ih
  · rintro candidate rest frame world attempted rfl hadmits - other hmem
    rw [mem_singleton.mp hmem]
    exact hadmits
  · rintro candidate rest frame world attempted resolved rfl hadmits - ih other hmem
    rcases mem_cons.mp hmem with rfl | hmem
    · exact hadmits
    · exact ih other hmem

/-- No attempt follows a terminal one. -/
theorem terminal_is_last (frame : Frame) (world : World) :
    (resolveLoop candidates frame world).attempts.Pairwise fun earlier _ =>
      earlier.reply.outcome.result ≠ .terminal := by
  apply resolveLoop_induction (motive := fun _ _ resolved =>
    resolved.attempts.Pairwise fun earlier _ => earlier.reply.outcome.result ≠ .terminal)
  · intro frame world
    exact List.Pairwise.nil
  · intro candidate rest frame status reason resolved ih
    exact ih
  · intro candidate rest frame world attempted hattempted hadmits hterminal
    exact pairwise_singleton _ _
  · intro candidate rest frame world attempted resolved hattempted hadmits hgoes ih
    exact List.Pairwise.cons (fun _ _ => hgoes) ih

/-- An attempt finds the lanes claimed that the commits before it left. -/
theorem claimed_at_attempt (frame : Frame) (world : World) :
    ∀ before attempted later,
      (resolveLoop candidates frame world).attempts = before ++ attempted :: later →
      attempted.frame.lastResolution.claimedResources =
        joinLanes frame.lastResolution.claimedResources (committed before) := by
  apply resolveLoop_induction (motive := fun _ frame resolved =>
    ∀ before (attempted : Attempted World) later,
      resolved.attempts = before ++ attempted :: later →
      attempted.frame.lastResolution.claimedResources =
        joinLanes frame.lastResolution.claimedResources (committed before))
  · intro frame world before attempted later h
    simp at h
  · intro candidate rest frame status reason resolved ih
    exact ih
  · rintro candidate rest frame world attempted rfl - - before other later h
    cases before with
    | nil =>
      rw [← (cons.inj h).1]
      rfl
    | cons first before => simp at h
  · rintro candidate rest frame world attempted resolved hattempted - - ih before other later h
    cases before with
    | nil =>
      rw [← (cons.inj h).1, hattempted]
      rfl
    | cons first before =>
      obtain ⟨hfirst, hrest⟩ := cons.inj h
      have hframe : attempted.frame.lastResolution = frame.lastResolution := by
        rw [hattempted]
        rfl
      rw [ih before other later hrest, ← hfirst]
      by_cases hcommits : attempted.Commits
      · rw [committed_cons_of_commits hcommits, (after_of_commits hcommits).1, hframe]
        rfl
      · rw [committed_cons_of_not_commits hcommits, (after_of_not_commits hcommits).1, hframe]

/-- The resolution gains the lanes and the keys of the commits. -/
theorem resolution_of_committed (frame : Frame) (world : World) :
    let resolved := resolveLoop candidates frame world
    resolved.frame.lastResolution.claimedResources =
        joinLanes frame.lastResolution.claimedResources (committed resolved.attempts) ∧
      resolved.frame.lastResolution.committedCandidates =
        frame.lastResolution.committedCandidates ++
          (committed resolved.attempts).map fun attempted => attempted.candidate.key := by
  apply resolveLoop_induction (motive := fun _ frame resolved =>
    resolved.frame.lastResolution.claimedResources =
        joinLanes frame.lastResolution.claimedResources (committed resolved.attempts) ∧
      resolved.frame.lastResolution.committedCandidates =
        frame.lastResolution.committedCandidates ++
          (committed resolved.attempts).map fun attempted => attempted.candidate.key)
  · intro frame world
    exact ⟨rfl, (append_nil _).symm⟩
  · intro candidate rest frame status reason resolved ih
    exact ih
  · intro candidate rest frame world attempted hattempted hadmits hterminal
    have hframe : attempted.frame.lastResolution = frame.lastResolution := by
      rw [hattempted]
      rfl
    have hcommits := not_commits_of_terminal hterminal
    rw [committed_cons_of_not_commits hcommits, ← hframe]
    exact ⟨(after_of_not_commits hcommits).1,
      (after_of_not_commits hcommits).2.trans (append_nil _).symm⟩
  · intro candidate rest frame world attempted resolved hattempted hadmits hgoes ih
    have hframe : attempted.frame.lastResolution = frame.lastResolution := by
      rw [hattempted]
      rfl
    obtain ⟨hclaimed, hkeys⟩ := ih
    show resolved.frame.lastResolution.claimedResources = _ ∧
      resolved.frame.lastResolution.committedCandidates = _
    rw [hclaimed, hkeys, ← hframe]
    by_cases hcommits : attempted.Commits
    · rw [committed_cons_of_commits hcommits, (after_of_commits hcommits).1,
        (after_of_commits hcommits).2, append_assoc]
      exact ⟨rfl, rfl⟩
    · rw [committed_cons_of_not_commits hcommits, (after_of_not_commits hcommits).1,
        (after_of_not_commits hcommits).2]
      exact ⟨rfl, rfl⟩

/-- Committed candidates own lanes that nobody before them claimed. -/
theorem disjoint_lanes (frame : Frame) (world : World) :
    let commits := committed (resolveLoop candidates frame world).attempts
    (∀ attempted ∈ commits, conflicts attempted.candidate.requiredResources
        frame.lastResolution.claimedResources = false) ∧
      commits.Pairwise fun a b =>
        conflicts a.candidate.requiredResources b.candidate.requiredResources = false := by
  apply resolveLoop_induction (motive := fun _ frame resolved =>
    (∀ attempted ∈ committed resolved.attempts,
        conflicts attempted.candidate.requiredResources
          frame.lastResolution.claimedResources = false) ∧
      (committed resolved.attempts).Pairwise fun a b =>
        conflicts a.candidate.requiredResources b.candidate.requiredResources = false)
  · intro frame world
    exact ⟨by simp [committed], List.Pairwise.nil⟩
  · intro candidate rest frame status reason resolved ih
    exact ih
  · intro candidate rest frame world attempted hattempted hadmits hterminal
    rw [committed_cons_of_not_commits (not_commits_of_terminal hterminal)]
    exact ⟨by simp [committed], List.Pairwise.nil⟩
  · intro candidate rest frame world attempted resolved hattempted hadmits hgoes ih
    have hframe : attempted.frame.lastResolution = frame.lastResolution := by
      rw [hattempted]
      rfl
    have hcandidate : attempted.candidate = candidate := by
      rw [hattempted]
      rfl
    obtain ⟨hfree, hpairwise⟩ := ih
    by_cases hcommits : attempted.Commits
    · rw [(after_of_commits hcommits).1, hframe] at hfree
      rw [committed_cons_of_commits hcommits]
      constructor
      · intro other hmem
        rcases mem_cons.mp hmem with rfl | hmem
        · rw [← hframe, hcandidate]
          exact hadmits.free
        · exact (conflicts_or.mp (hfree other hmem)).1
      · apply List.Pairwise.cons _ hpairwise
        intro other hmem
        rw [conflicts_comm]
        exact (conflicts_or.mp (hfree other hmem)).2
    · rw [(after_of_not_commits hcommits).1, hframe] at hfree
      rw [committed_cons_of_not_commits hcommits]
      exact ⟨hfree, hpairwise⟩

/-- The lifecycle of a key outside the round is what the callbacks' own calls make of it. -/
theorem lifecycle_of_unsubmitted (frame : Frame) (world : World)
    (hkey : key ∉ candidates.map fun candidate => candidate.key) :
    let resolved := resolveLoop candidates frame world
    resolved.frame.lifecycles[key]? =
      (resolved.attempts.flatMap fun attempted => attempted.reply.calls).foldl
        (KernelCall.onLifecycle key) frame.lifecycles[key]? := by
  revert hkey
  apply resolveLoop_induction (motive := fun candidates frame resolved =>
    (key ∉ candidates.map fun candidate => candidate.key) →
      resolved.frame.lifecycles[key]? =
        (resolved.attempts.flatMap fun attempted => attempted.reply.calls).foldl
          (KernelCall.onLifecycle key) frame.lifecycles[key]?)
  · intro frame world hkey
    rfl
  · intro candidate rest frame status reason resolved ih hkey
    rw [map_cons, mem_cons, not_or] at hkey
    rw [ih hkey.2]
    congr 1
    exact getElem?_setLifecycle frame _ (Ne.symm hkey.1)
  · rintro candidate rest frame world attempted rfl hadmits hterminal hkey
    rw [map_cons, mem_cons, not_or] at hkey
    rw [getElem?_after frame candidate world (Ne.symm hkey.1), flatMap_singleton]
  · rintro candidate rest frame world attempted resolved rfl hadmits hgoes ih hkey
    rw [map_cons, mem_cons, not_or] at hkey
    rw [flatMap_cons, foldl_append]
    show resolved.frame.lifecycles[key]? = _
    rw [ih hkey.2, getElem?_after frame candidate world (Ne.symm hkey.1)]

/-- What one resolution of `kernel` guarantees of the kernel it leaves and its attempts. -/
structure Guarantees (kernel resolved : Kernel World) (attempts : List (Attempted World)) :
    Prop where
  /-- The commits are appended to the committed candidates. -/
  committedCandidates : resolved.lastResolution.committedCandidates =
    kernel.lastResolution.committedCandidates ++
      (committed attempts).map fun attempted => attempted.candidate.key
  /-- Their lanes join the claimed ones, -/
  claimedResources : resolved.lastResolution.claimedResources =
    joinLanes kernel.lastResolution.claimedResources (committed attempts)
  /-- which nobody owned before -/
  fresh : ∀ attempted ∈ committed attempts, conflicts attempted.candidate.requiredResources
    kernel.lastResolution.claimedResources = false
  /-- and no two of them share. -/
  disjoint : (committed attempts).Pairwise fun a b =>
    conflicts a.candidate.requiredResources b.candidate.requiredResources = false
  /-- A key is attempted at most once, -/
  once : (attempts.map fun attempted => attempted.candidate.key).Nodup
  /-- past every mask at the point of the call, -/
  admits : ∀ attempted ∈ attempts, attempted.frame.Admits attempted.candidate.toProposal
  /-- where the claimed lanes are those of the commits so far. -/
  claimedAtCall : ∀ before attempted later, attempts = before ++ attempted :: later →
    attempted.frame.lastResolution.claimedResources =
      joinLanes kernel.lastResolution.claimedResources (committed before)
  /-- Nothing is attempted after a terminal outcome. -/
  terminalLast : attempts.Pairwise fun earlier _ => earlier.reply.outcome.result ≠ .terminal
  /-- The lifecycle of a key that was not submitted is what the callbacks' own calls into the
  kernel make of it. -/
  unsubmitted : ∀ key, key ∉ kernel.candidates.map Queued.key →
    resolved.lifecycles[key]? =
      (attempts.flatMap fun attempted => attempted.reply.calls).foldl
        (KernelCall.onLifecycle key) kernel.lifecycles[key]?
  /-- It is unchanged when none of them resets or observes it. -/
  untouched : ∀ key, key ∉ kernel.candidates.map Queued.key →
    (∀ attempted ∈ attempts, ∀ call ∈ attempted.reply.calls, ¬ call.Touches key) →
    resolved.lifecycles[key]? = kernel.lifecycles[key]?

theorem keys_ranked_perm (kernel : Kernel World) :
    (kernel.ranked.map fun candidate => candidate.key).Perm (kernel.candidates.map Queued.key) := by
  rw [Kernel.ranked, map_map]
  exact (perm_insertionSort _ kernel.candidates).map _

theorem not_mem_ranked {kernel : Kernel World} (h : key ∉ kernel.candidates.map Queued.key) :
    key ∉ kernel.ranked.map fun candidate => candidate.key :=
  fun hmem => h ((keys_ranked_perm kernel).mem_iff.mp hmem)

/-- One resolution, whatever was submitted and whatever the callbacks do. -/
theorem resolve_guarantees (kernel : Kernel World) (world : World) :
    Guarantees kernel (kernel.resolve world).1 (kernel.resolve world).2.2 where
  committedCandidates := (resolution_of_committed kernel.ranked kernel.toFrame world).2
  claimedResources := (resolution_of_committed kernel.ranked kernel.toFrame world).1
  fresh := (disjoint_lanes kernel.ranked kernel.toFrame world).1
  disjoint := (disjoint_lanes kernel.ranked kernel.toFrame world).2
  once := by
    have hkeys := (attempted_sublist kernel.ranked kernel.toFrame world).map
      fun candidate => candidate.key
    rw [map_map] at hkeys
    exact hkeys.nodup ((keys_ranked_perm kernel).nodup_iff.mpr kernel.distinct)
  admits := admits_of_attempted kernel.ranked kernel.toFrame world
  claimedAtCall := claimed_at_attempt kernel.ranked kernel.toFrame world
  terminalLast := terminal_is_last kernel.ranked kernel.toFrame world
  unsubmitted key hkey :=
    lifecycle_of_unsubmitted kernel.ranked kernel.toFrame world (not_mem_ranked hkey)
  untouched key hkey huntouched := by
    have hlifecycle :=
      lifecycle_of_unsubmitted kernel.ranked kernel.toFrame world (not_mem_ranked hkey)
    apply hlifecycle.trans
    apply foldl_onLifecycle_of_not_touches
    intro call hmem
    obtain ⟨attempted, hattempted, hcall⟩ := mem_flatMap.mp hmem
    exact huntouched attempted hattempted call hcall

/-- A route candidate whose callback reports the end of the route, while a spell backs off. -/
def routeEnd : Kernel Unit :=
  ({ lifecycles := (∅ : Std.ExtTreeMap String Lifecycle).insert "cast" { retryAfterMs := 900 } } :
    Kernel Unit).submit
    { key := "route", requiredResources := 4
      attempt := some fun world frame =>
        { outcome := .committed "route_complete"
          calls := [.resetLifecycleHistory frame.nowMs]
          world := world } }

/-- The lifecycle of the spell is gone although it was not submitted; and what a second
resolution in the same tick claims is not the lanes of its own commits alone. -/
theorem resolve_exceeds_its_commits :
    ("cast" ∉ routeEnd.candidates.map Queued.key ∧
      (routeEnd.resolve ()).1.lifecycles["cast"]? ≠ routeEnd.lifecycles["cast"]?) ∧
    ((routeEnd.resolve ()).1.resolve ()).1.lastResolution.claimedResources ≠
      joinLanes 0 (committed ((routeEnd.resolve ()).1.resolve ()).2.2) := by
  decide +kernel

end TrinityCore.Bots.ActionArbitration
