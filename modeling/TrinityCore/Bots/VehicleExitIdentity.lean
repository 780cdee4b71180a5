import TrinityCore.Bots.VehicleExitLanding

/-!
# Identity of a vehicle-exit landing

Submissions may be made before the mount, while mounted or after the exit, and are carried
from one phase to the next by different tests. The invariant keeps, for each phase, the
identity a remembered submission must have; the provenance of a bound receipt, a remembered
submission and an attempted fall is followed back to the call that made it.
-/

namespace TrinityCore.Bots.VehicleExitLanding

open MovementArbitration StateMachine

/-! ### Identities -/

/-- The submission an episode remembers. -/
def Episode.submission (episode : Episode) : GroundPointSubmission :=
  { receiptId := episode.submittedGroundReceiptId
    botGuid := episode.submittedBotGuid
    mapId := episode.submittedMapId
    instanceId := episode.submittedInstanceId
    submittedAtMs := episode.groundSubmittedAtMs
    scope := episode.submittedScope }

/-- The exit an episode follows. -/
structure Exit where
  observedAtMs : UInt64
  botGuid : UInt64
  mapId : UInt32
  instanceId : UInt32
  scopeAvailable : Bool
  scope : Scope

/-- The exit of an episode. -/
def Episode.exit (episode : Episode) : Exit :=
  { observedAtMs := episode.exitObservedAtMs
    botGuid := episode.exitBotGuid
    mapId := episode.exitMapId
    instanceId := episode.exitInstanceId
    scopeAvailable := episode.exitScopeAvailable
    scope := episode.exitScope }

/-- The bot that occupies, or last occupied, the vehicle. -/
structure Occupant where
  botGuid : UInt64
  mapId : UInt32
  instanceId : UInt32
  scopeAvailable : Bool
  scope : Scope

/-- The occupant of an episode. -/
def Episode.occupant (episode : Episode) : Occupant :=
  { botGuid := episode.occupiedBotGuid
    mapId := episode.occupiedMapId
    instanceId := episode.occupiedInstanceId
    scopeAvailable := episode.occupiedScopeAvailable
    scope := episode.occupiedScope }

/-- The submission was made for the exit's bot, map and instance, and its scope when the
exit has one. -/
structure GroundPointSubmission.For (submission : GroundPointSubmission) (exit : Exit) :
    Prop where
  botGuid : submission.botGuid = exit.botGuid
  mapId : submission.mapId = exit.mapId
  instanceId : submission.instanceId = exit.instanceId
  scope : exit.scopeAvailable = true → submission.scope = exit.scope

/-- The submission was made for the occupant, whose scope is known. -/
structure GroundPointSubmission.ForOccupant (submission : GroundPointSubmission)
    (occupant : Occupant) : Prop where
  botGuid : submission.botGuid = occupant.botGuid
  mapId : submission.mapId = occupant.mapId
  instanceId : submission.instanceId = occupant.instanceId
  scopeAvailable : occupant.scopeAvailable = true
  scope : submission.scope = occupant.scope

/-- The progress was armed at or after the exit, for its bot, map, instance and scope. -/
structure Progress.For (progress : Progress) (exit : Exit) : Prop where
  botGuid : progress.botGuid = exit.botGuid
  mapId : progress.mapId = exit.mapId
  instanceId : progress.instanceId = exit.instanceId
  scope : exit.scopeAvailable = true → progress.scope = exit.scope
  armed : exit.observedAtMs ≤ progress.armedAtMs

/-- What holds of an episode in every phase. -/
structure Coherent (episode : Episode) : Prop where
  exclusive : episode.vehicleOccupiedLastTick = true → episode.exitPending = false
  mounted : episode.vehicleOccupiedLastTick = true → episode.submission.receiptId ≠ 0 →
    episode.submission.ForOccupant episode.occupant
  exited : episode.exitPending = true → episode.submission.receiptId ≠ 0 →
    episode.submission.For episode.exit

/-- Nothing is submitted in a new episode. -/
theorem coherent_init : Coherent {} where
  exclusive := by simp
  mounted := by simp
  exited := by simp

/-! ### What each operation does -/

/-- A submission is refused, or remembered as it is after passing the three tests. -/
theorem rememberGroundPointSubmission_cases (episode : Episode)
    (submission : GroundPointSubmission) :
    rememberGroundPointSubmission episode submission = (episode, false) ∨
      refusedByExit episode submission = false ∧
      refusedByOccupancy episode submission = false ∧
      rememberGroundPointSubmission episode submission =
        ({ episode with
          submittedBotGuid := submission.botGuid
          submittedMapId := submission.mapId
          submittedInstanceId := submission.instanceId
          submittedScope := submission.scope
          submittedGroundReceiptId := submission.receiptId
          groundSubmittedAtMs := submission.submittedAtMs
          awaitingGroundReceipt := true }, true) := by
  unfold rememberGroundPointSubmission
  split
  · exact .inl rfl
  split
  · exact .inl rfl
  next hexit =>
  split
  · exact .inl rfl
  next hoccupancy =>
  split
  · exact .inl rfl
  · exact .inr ⟨eq_false_of_ne_true hexit, eq_false_of_ne_true hoccupancy, rfl⟩

variable {episode : Episode} {evidence : LandingEvidence}

/-- A submission that passes a pending exit's test was made for that exit. -/
theorem for_exit_of_not_refused {submission : GroundPointSubmission}
    (h : refusedByExit episode submission = false) (hpending : episode.exitPending = true) :
    submission.For episode.exit := by
  simp only [refusedByExit, hpending, Bool.true_and, Bool.or_eq_false_iff, bne_eq_false_iff_eq,
    decide_eq_false_iff_not, Bool.and_eq_false_iff, Bool.not_eq_false',
    sameEpisodeScope_iff] at h
  obtain ⟨⟨⟨⟨hbot, hmap⟩, hinstance⟩, -⟩, hscope⟩ := h
  refine ⟨hbot, hmap, hinstance, fun havailable => ?_⟩
  rcases hscope with hscope | hscope
  · exact absurd havailable (by rw [Episode.exit, hscope]; exact Bool.false_ne_true)
  · exact hscope

/-- A submission that passes the occupant's test was made for the occupant. -/
theorem for_occupant_of_not_refused {submission : GroundPointSubmission}
    (h : refusedByOccupancy episode submission = false)
    (hoccupied : episode.vehicleOccupiedLastTick = true) :
    submission.ForOccupant episode.occupant := by
  simp only [refusedByOccupancy, hoccupied, Bool.true_and, Bool.or_eq_false_iff,
    bne_eq_false_iff_eq, Bool.not_eq_false', sameEpisodeScope_iff] at h
  obtain ⟨⟨⟨⟨hbot, hmap⟩, hinstance⟩, havailable⟩, hscope⟩ := h
  exact ⟨hbot, hmap, hinstance, havailable, hscope⟩

/-- A receipt is refused, or bound to a pending exit whose identity it has. -/
theorem bindGroundingReceipt_cases (episode : Episode) (receipt : ReceiptBindingObservation) :
    bindGroundingReceipt episode receipt = (episode, false) ∨
      episode.exitPending = true ∧ receipt.botGuid = episode.exitBotGuid ∧
      receipt.mapId = episode.exitMapId ∧ receipt.instanceId = episode.exitInstanceId ∧
      episode.exitObservedAtMs ≤ receipt.armedAtMs ∧
      (episode.exitScopeAvailable = true → receipt.receiptScope = episode.exitScope) ∧
      bindGroundingReceipt episode receipt =
        ({ episode with
          boundGroundingReceiptId := receipt.receiptId
          boundGroundingReceiptArmedAtMs := receipt.armedAtMs }, true) := by
  unfold bindGroundingReceipt
  split
  · exact .inl rfl
  next hgate =>
  split
  · exact .inl rfl
  next hidentity =>
  split
  · exact .inl rfl
  next hscope =>
  split
  · exact .inl rfl
  simp only [Bool.or_eq_true, not_or, Bool.not_eq_true', Bool.not_eq_false] at hgate
  simp only [Bool.or_eq_true, not_or, bne_iff_ne, not_not, decide_eq_true_eq, UInt64.not_lt]
    at hidentity
  simp only [Bool.or_eq_true, not_or, bne_iff_ne, not_not, Bool.and_eq_true, not_and,
    Bool.not_eq_true', Bool.not_eq_false, sameEpisodeScope_iff] at hscope
  obtain ⟨⟨⟨hbot, hmap⟩, hinstance⟩, harmed⟩ := hidentity
  exact .inr ⟨hgate.1.1.1.1.1.1, hbot, hmap, hinstance, harmed, hscope.2, rfl⟩

/-- A progress is refused, perhaps ending the wait or the submission, or binds a receipt of
the pending exit's identity. -/
theorem bindSubmittedGroundReceipt_cases (episode : Episode) (progress : Progress) :
    bindSubmittedGroundReceipt episode progress = (episode, false) ∨
      bindSubmittedGroundReceipt episode progress =
        ({ episode with awaitingGroundReceipt := false }, false) ∨
      bindSubmittedGroundReceipt episode progress = (resetSubmittedReceipt episode, false) ∨
      episode.exitPending = true ∧ progress.For episode.exit ∧
      bindSubmittedGroundReceipt episode progress =
        ({ episode with
          boundGroundingReceiptId := progress.receiptId
          boundGroundingReceiptArmedAtMs := progress.armedAtMs
          awaitingGroundReceipt := false }, true) := by
  unfold bindSubmittedGroundReceipt
  split
  · exact .inl rfl
  split
  · exact .inr (.inl rfl)
  split
  · exact .inl rfl
  split
  · exact .inr (.inr (.inl rfl))
  rcases bindGroundingReceipt_cases episode (bindingCandidate episode progress) with
    heq | ⟨hpending, hbot, hmap, hinstance, harmed, hscope, heq⟩
  · rw [heq]
    exact .inl rfl
  · rw [heq]
    exact .inr (.inr (.inr ⟨hpending, ⟨hbot, hmap, hinstance, hscope, harmed⟩, rfl⟩))

/-- An occupancy sample changes nothing, drops a submission no phase needs, begins an
occupancy or begins an exit. -/
theorem observeVehicleTransition_cases (episode : Episode)
    (observation : VehicleTransitionObservation) :
    observeVehicleTransition episode observation = episode ∨
      observeVehicleTransition episode observation = resetSubmittedReceipt episode ∨
      observeVehicleTransition episode observation = beginVehicleOccupancy episode observation ∨
      episode.vehicleOccupiedLastTick = true ∧
        observeVehicleTransition episode observation = beginExit episode observation := by
  unfold observeVehicleTransition
  split
  · split
    · exact .inr (.inr (.inl rfl))
    · exact .inl rfl
  · split
    · split
      · exact .inr (.inl rfl)
      · exact .inl rfl
    · next hoccupied => exact .inr (.inr (.inr ⟨by simpa using hoccupied, rfl⟩))

/-! ### The invariant -/

/-- Without a submission only the exclusion of the phases is left to hold. -/
theorem coherent_resetSubmittedReceipt
    (h : episode.vehicleOccupiedLastTick = true → episode.exitPending = false) :
    Coherent (resetSubmittedReceipt episode) where
  exclusive := h
  mounted _ hsubmitted := absurd rfl hsubmitted
  exited _ hsubmitted := absurd rfl hsubmitted

/-- A mount carries only a submission of the new occupant. -/
theorem coherent_beginVehicleOccupancy (episode : Episode)
    (observation : VehicleTransitionObservation) :
    Coherent (beginVehicleOccupancy episode observation) := by
  unfold beginVehicleOccupancy carryOrReset
  simp only
  split
  · next hcarry =>
    simp only [sameSubmissionIdentity, Bool.and_eq_true, beq_iff_eq, sameEpisodeScope_iff]
      at hcarry
    obtain ⟨-, ⟨⟨⟨⟨havailable, hbot⟩, hmap⟩, hinstance⟩, hscope⟩, -⟩ := hcarry
    exact
      { exclusive := fun _ => rfl
        mounted := fun _ _ => ⟨hbot, hmap, hinstance, havailable, hscope⟩
        exited := fun hpending => Bool.noConfusion hpending }
  · apply coherent_resetSubmittedReceipt
    exact fun _ => rfl

/-- An exit carries only a submission of the occupant that left. -/
theorem coherent_beginExit (h : Coherent episode)
    (hoccupied : episode.vehicleOccupiedLastTick = true)
    (observation : VehicleTransitionObservation) : Coherent (beginExit episode observation) := by
  unfold beginExit carryOrReset
  simp only
  split
  · next hcarry =>
    simp only [sameOccupancyIdentity, Bool.and_eq_true, beq_iff_eq, Bool.or_eq_true,
      Bool.not_eq_true', sameEpisodeScope_iff] at hcarry
    obtain ⟨⟨-, ⟨⟨⟨hbot, hmap⟩, hinstance⟩, -⟩, hscope⟩, -⟩ := hcarry
    refine
      { exclusive := fun hnot => Bool.noConfusion hnot
        mounted := fun hnot => Bool.noConfusion hnot
        exited := fun _ hsubmitted => ?_ }
    have hoccupant := h.mounted hoccupied hsubmitted
    refine ⟨hoccupant.botGuid.trans hbot, hoccupant.mapId.trans hmap,
      hoccupant.instanceId.trans hinstance, fun havailable => ?_⟩
    change observation.scopeAvailable = true at havailable
    rcases hscope with hnone | hscope
    · rw [hnone] at havailable
      cases havailable
    · exact hoccupant.scope.trans hscope
  · apply coherent_resetSubmittedReceipt
    exact fun hnot => Bool.noConfusion hnot

/-- Every call keeps the invariant. -/
theorem coherent_step (episode : Episode) (call : Call) (h : Coherent episode) :
    Coherent (step episode call) := by
  cases call with
  | observeVehicleTransition observation =>
    change Coherent (observeVehicleTransition episode observation)
    rcases observeVehicleTransition_cases episode observation with
      heq | heq | heq | ⟨hoccupied, heq⟩
    · rwa [heq]
    · rw [heq]
      exact coherent_resetSubmittedReceipt h.exclusive
    · rw [heq]
      exact coherent_beginVehicleOccupancy episode observation
    · rw [heq]
      exact coherent_beginExit h hoccupied observation
  | rememberGroundPointSubmission submission =>
    change Coherent (rememberGroundPointSubmission episode submission).1
    rcases rememberGroundPointSubmission_cases episode submission with
      heq | ⟨hexit, hoccupancy, heq⟩
    · rwa [heq]
    · rw [heq]
      exact
        { exclusive := h.exclusive
          mounted := fun hoccupied _ => for_occupant_of_not_refused hoccupancy hoccupied
          exited := fun hpending _ => for_exit_of_not_refused hexit hpending }
  | bindSubmittedGroundReceipt progress =>
    change Coherent (bindSubmittedGroundReceipt episode progress).1
    rcases bindSubmittedGroundReceipt_cases episode progress with
      heq | heq | heq | ⟨-, -, heq⟩
    · rwa [heq]
    · rw [heq]
      exact ⟨h.exclusive, h.mounted, h.exited⟩
    · rw [heq]
      exact coherent_resetSubmittedReceipt h.exclusive
    · rw [heq]
      exact ⟨h.exclusive, h.mounted, h.exited⟩
  | startVehicleExitNativeFall evidence observedAtMs launched =>
    change Coherent (startVehicleExitNativeFall episode evidence observedAtMs launched).1
    unfold startVehicleExitNativeFall
    split
    · exact h
    · exact ⟨h.exclusive, h.mounted, h.exited⟩
  | resetBoundReceipt =>
    exact ⟨h.exclusive, h.mounted, h.exited⟩
  | resetSubmittedReceipt => exact coherent_resetSubmittedReceipt h.exclusive
  | closeEpisode => exact coherent_resetSubmittedReceipt fun _ => rfl

/-! ### Provenance -/

/-- The call is an accepted `RememberGroundPointSubmission` of this submission. -/
def Submits (submission : GroundPointSubmission) (episode : Episode) (call : Call) : Prop :=
  call = .rememberGroundPointSubmission submission ∧
    (rememberGroundPointSubmission episode submission).2 = true

/-- The call is an accepted `BindSubmittedGroundReceipt` of this progress. -/
def Binds (progress : Progress) (episode : Episode) (call : Call) : Prop :=
  call = .bindSubmittedGroundReceipt progress ∧
    (bindSubmittedGroundReceipt episode progress).2 = true

/-- The call is a `StartVehicleExitNativeFall` that `Resolve` admits. -/
def AttemptsFall (episode : Episode) (call : Call) : Prop :=
  ∃ evidence observedAtMs launched,
    call = .startVehicleExitNativeFall evidence observedAtMs launched ∧
      (resolve episode evidence).decision = .startNativeFall

/-- The episode follows this exit. -/
def Follows (exit : Exit) (episode : Episode) : Prop :=
  episode.exitPending = true ∧ episode.exit = exit

/-- Only a pending exit is resolved to a native fall. -/
theorem exitPending_of_startNativeFall
    (h : (resolve episode evidence).decision = .startNativeFall) :
    episode.exitPending = true := by
  by_contra hpending
  rw [Bool.not_eq_true] at hpending
  simp [resolve, hpending] at h

/-- What one call can do to an episode. -/
structure Moves (episode : Episode) (call : Call) (after : Episode) : Prop where
  /-- A remembered submission comes from an accepted call. -/
  submission : after.submission = episode.submission ∨ after.submission.receiptId = 0 ∨
    Submits after.submission episode call
  /-- A call either starts over, with nothing bound and no fall attempted, or follows the same
  exit. -/
  exit : after.boundGroundingReceiptId = 0 ∧ after.fall.attempted = false ∨
    after.exitPending = episode.exitPending ∧ after.exit = episode.exit
  /-- A bound receipt was bound before, or is bound now for the exit followed. -/
  bound : after.boundGroundingReceiptId = 0 ∨
    after.boundGroundingReceiptId = episode.boundGroundingReceiptId ∧
      after.boundGroundingReceiptArmedAtMs = episode.boundGroundingReceiptArmedAtMs ∨
    ∃ progress, Binds progress episode call ∧ episode.exitPending = true ∧
      progress.For episode.exit ∧ after.boundGroundingReceiptId = progress.receiptId ∧
      after.boundGroundingReceiptArmedAtMs = progress.armedAtMs
  /-- An attempted fall was attempted before, or is attempted now for the exit followed. -/
  attempted : after.fall.attempted = false ∨ after.fall.attempted = episode.fall.attempted ∨
    AttemptsFall episode call ∧ episode.exitPending = true

theorem Moves.refl (episode : Episode) (call : Call) : Moves episode call episode :=
  ⟨.inl rfl, .inr ⟨rfl, rfl⟩, .inr (.inl ⟨rfl, rfl⟩), .inr (.inl rfl)⟩

theorem Moves.reset (episode : Episode) (call : Call) :
    Moves episode call (resetSubmittedReceipt episode) :=
  ⟨.inr (.inl rfl), .inr ⟨rfl, rfl⟩, .inr (.inl ⟨rfl, rfl⟩), .inr (.inl rfl)⟩

theorem moves_step (episode : Episode) (call : Call) :
    Moves episode call (step episode call) := by
  cases call with
  | observeVehicleTransition observation =>
    rw [step]
    rcases observeVehicleTransition_cases episode observation with heq | heq | heq | ⟨-, heq⟩
    · rw [heq]
      exact Moves.refl episode _
    · rw [heq]
      exact Moves.reset episode _
    · rw [heq, beginVehicleOccupancy, carryOrReset]
      split
      · exact ⟨.inl rfl, .inl ⟨rfl, rfl⟩, .inl rfl, .inl rfl⟩
      · exact ⟨.inr (.inl rfl), .inl ⟨rfl, rfl⟩, .inl rfl, .inl rfl⟩
    · rw [heq, beginExit, carryOrReset]
      split
      · exact ⟨.inl rfl, .inl ⟨rfl, rfl⟩, .inl rfl, .inl rfl⟩
      · exact ⟨.inr (.inl rfl), .inl ⟨rfl, rfl⟩, .inl rfl, .inl rfl⟩
  | rememberGroundPointSubmission submission =>
    rcases rememberGroundPointSubmission_cases episode submission with heq | ⟨-, -, heq⟩
    · rw [step, heq]
      exact Moves.refl episode _
    · have hsubmits : Submits submission episode (.rememberGroundPointSubmission submission) :=
        ⟨rfl, by rw [heq]⟩
      rw [step, heq]
      exact ⟨.inr (.inr hsubmits), .inr ⟨rfl, rfl⟩, .inr (.inl ⟨rfl, rfl⟩), .inr (.inl rfl)⟩
  | bindSubmittedGroundReceipt progress =>
    rcases bindSubmittedGroundReceipt_cases episode progress with
      heq | heq | heq | ⟨hpending, hfor, heq⟩
    · rw [step, heq]
      exact Moves.refl episode _
    · rw [step, heq]
      exact ⟨.inl rfl, .inr ⟨rfl, rfl⟩, .inr (.inl ⟨rfl, rfl⟩), .inr (.inl rfl)⟩
    · rw [step, heq]
      exact Moves.reset episode _
    · have hbinds : Binds progress episode (.bindSubmittedGroundReceipt progress) :=
        ⟨rfl, by rw [heq]⟩
      rw [step, heq]
      exact ⟨.inl rfl, .inr ⟨rfl, rfl⟩,
        .inr (.inr ⟨progress, hbinds, hpending, hfor, rfl, rfl⟩), .inr (.inl rfl)⟩
  | startVehicleExitNativeFall evidence observedAtMs launched =>
    rw [step, startVehicleExitNativeFall]
    by_cases hadmitted : (resolve episode evidence).decision = .startNativeFall
    · rw [if_neg (not_not.mpr hadmitted)]
      exact ⟨.inl rfl, .inr ⟨rfl, rfl⟩, .inr (.inl ⟨rfl, rfl⟩),
        .inr (.inr ⟨⟨evidence, observedAtMs, launched, rfl, hadmitted⟩,
          exitPending_of_startNativeFall hadmitted⟩)⟩
    · rw [if_pos hadmitted]
      exact Moves.refl episode _
  | resetBoundReceipt => exact ⟨.inl rfl, .inr ⟨rfl, rfl⟩, .inl rfl, .inr (.inl rfl)⟩
  | resetSubmittedReceipt => exact Moves.reset episode _
  | closeEpisode => exact ⟨.inr (.inl rfl), .inl ⟨rfl, rfl⟩, .inl rfl, .inl rfl⟩

/-- Where what an episode holds comes from, over a whole history of calls. -/
structure Traced (calls : List Call) : Prop where
  coherent : Coherent (run step {} calls)
  submitted : (run step {} calls).submission.receiptId ≠ 0 →
    Since step {} (Submits (run step {} calls).submission) (fun _ => True) calls
  bound : (run step {} calls).boundGroundingReceiptId ≠ 0 →
    ∃ progress, (run step {} calls).boundGroundingReceiptId = progress.receiptId ∧
      (run step {} calls).boundGroundingReceiptArmedAtMs = progress.armedAtMs ∧
      progress.For (run step {} calls).exit ∧
      Since step {} (Binds progress) (Follows (run step {} calls).exit) calls
  attempted : (run step {} calls).fall.attempted = true →
    Since step {} AttemptsFall (Follows (run step {} calls).exit) calls

/-- What holds since some step of an exit still holds when the exit is still followed. -/
private theorem follows_later {act : Episode → Call → Prop} {calls : List Call} {call : Call}
    (h : Since step {} act (Follows (run step {} calls).exit) calls)
    (hpending : (step (run step {} calls) call).exitPending = (run step {} calls).exitPending)
    (hexit : (step (run step {} calls) call).exit = (run step {} calls).exit) :
    Since step {} act (Follows (step (run step {} calls) call).exit) (calls ++ [call]) := by
  rw [hexit]
  apply h.later
  rw [run_concat, Follows, hpending, hexit]
  obtain ⟨before, e, after, rfl, -, hall⟩ := h
  exact ⟨(hall after (List.prefix_refl after)).1, rfl⟩

/-- Every call extends the provenance. -/
theorem traced_step (calls : List Call) (call : Call) (h : Traced calls) :
    Traced (calls ++ [call]) := by
  have hmoves := moves_step (run step {} calls) call
  constructor <;> rw [run_concat]
  · exact coherent_step _ call h.coherent
  · intro hsubmitted
    rcases hmoves.submission with hsame | hnone | hnew
    · rw [hsame] at hsubmitted ⊢
      exact (h.submitted hsubmitted).later trivial
    · exact absurd hnone hsubmitted
    · exact since_now hnew trivial
  · intro hbound
    obtain ⟨hpending, hsame⟩ := hmoves.exit.resolve_left fun hnone => hbound hnone.1
    rcases hmoves.bound with hnone | ⟨hid, harmed⟩ |
      ⟨progress, hbinds, hwas, hfor, hid, harmed⟩
    · exact absurd hnone hbound
    · rw [hid] at hbound
      obtain ⟨progress, hid', harmed', hfor, hsince⟩ := h.bound hbound
      refine ⟨progress, hid.trans hid', harmed.trans harmed', hsame ▸ hfor, ?_⟩
      exact follows_later hsince hpending hsame
    · refine ⟨progress, hid, harmed, hsame ▸ hfor, ?_⟩
      exact since_now hbinds ⟨hpending.trans hwas, rfl⟩
  · intro hattempted
    have htrue : (step (run step {} calls) call).fall.attempted ≠ false := by
      rw [hattempted]
      exact nofun
    obtain ⟨hpending, hsame⟩ := hmoves.exit.resolve_left fun hnone => htrue hnone.2
    rcases hmoves.attempted with hnone | hwas | ⟨hattempts, hwas⟩
    · exact absurd hnone htrue
    · exact follows_later (h.attempted (hwas ▸ hattempted)) hpending hsame
    · exact since_now hattempts ⟨hpending.trans hwas, rfl⟩

/-- Every history is traced. -/
theorem traced (calls : List Call) : Traced calls := by
  apply history_invariant
  · exact
      { coherent := coherent_init
        submitted := fun h => absurd rfl h
        bound := fun h => absurd rfl h
        attempted := nofun }
  · exact traced_step

/-! ### Resolution -/

/-- The evidence is of the exit's bot, map and instance, and of its scope when it has one. -/
structure LandingEvidence.Of (evidence : LandingEvidence) (exit : Exit) : Prop where
  botGuid : evidence.botGuid = exit.botGuid
  mapId : evidence.mapId = exit.mapId
  instanceId : evidence.instanceId = exit.instanceId
  scopeAvailable : evidence.currentScopeAvailable = exit.scopeAvailable
  scope : exit.scopeAvailable = true → evidence.currentScope = exit.scope

/-- The evidence carries the bound receipt, with the exit's identity. -/
structure LandingEvidence.ShowsBoundReceipt (evidence : LandingEvidence) (episode : Episode) :
    Prop where
  bound : episode.boundGroundingReceiptId ≠ 0
  receiptId : evidence.receiptId = episode.boundGroundingReceiptId
  armedAtMs : evidence.receiptArmedAtMs = episode.boundGroundingReceiptArmedAtMs
  botGuid : evidence.receiptBotGuid = episode.exit.botGuid
  mapId : evidence.receiptMapId = episode.exit.mapId
  instanceId : evidence.receiptInstanceId = episode.exit.instanceId
  scopeAvailable : evidence.receiptScopeAvailable = episode.exit.scopeAvailable
  scope : episode.exit.scopeAvailable = true → evidence.receiptScope = episode.exit.scope

/-- A check whose answer is another decision was passed. -/
theorem passed_of_decision {c : Prop} [Decidable c] {answer rest : ReconciliationResult}
    {decision : Decision} (h : (if c then answer else rest).decision = decision)
    (hanswer : answer.decision ≠ decision) : ¬c ∧ rest.decision = decision := by
  by_cases hc : c
  · rw [if_pos hc] at h
    exact absurd h hanswer
  · rw [if_neg hc] at h
    exact ⟨hc, h⟩

/-- The flag is cleared after a native fall only when that fall was attempted. -/
theorem resolveNativeFall_clear
    (h : (resolveNativeFall episode evidence).decision = .clearStaleLandingFlag) :
    episode.fall.attempted = true := by
  unfold resolveNativeFall at h
  obtain ⟨-, h⟩ := passed_of_decision h (by decide)
  obtain ⟨-, h⟩ := passed_of_decision h (by decide)
  obtain ⟨-, h⟩ := passed_of_decision h (by decide)
  obtain ⟨-, h⟩ := passed_of_decision h (by decide)
  obtain ⟨-, h⟩ := passed_of_decision h (by decide)
  obtain ⟨-, h⟩ := passed_of_decision h (by decide)
  have hlaunched := passed_of_decision h (by split <;> decide)
  simpa using hlaunched.1

/-- The flag is cleared on a receipt only when it is the bound one, of the exit. -/
theorem resolveGroundReceipt_clear
    (h : (resolveGroundReceipt episode evidence).decision = .clearStaleLandingFlag) :
    evidence.ShowsBoundReceipt episode := by
  unfold resolveGroundReceipt at h
  obtain ⟨-, h⟩ := passed_of_decision h (by decide)
  obtain ⟨-, h⟩ := passed_of_decision h (by decide)
  obtain ⟨hbound, h⟩ := passed_of_decision h (by decide)
  obtain ⟨-, h⟩ := passed_of_decision h (by decide)
  obtain ⟨hidentity, h⟩ := passed_of_decision h (by decide)
  obtain ⟨hscope, -⟩ := passed_of_decision h (by decide)
  simp only [Bool.or_eq_true, not_or, bne_iff_ne, not_not] at hidentity
  simp only [Bool.or_eq_true, not_or, bne_iff_ne, not_not, Bool.and_eq_true, not_and,
    Bool.not_eq_true', Bool.not_eq_false, sameEpisodeScope_iff] at hscope
  obtain ⟨⟨⟨⟨⟨hreceipt, hbot⟩, hmap⟩, hinstance⟩, -⟩, harmed⟩ := hidentity
  exact ⟨fun heq => hbound (beq_iff_eq.mpr heq), hreceipt, harmed, hbot, hmap, hinstance,
    hscope.1, hscope.2⟩

/-- The flag is cleared only on evidence of the exit followed: the bound receipt, or an
attempted fall with no receipt submitted or bound. -/
theorem resolve_clear (h : (resolve episode evidence).decision = .clearStaleLandingFlag) :
    episode.exitPending = true ∧ evidence.Of episode.exit ∧
      (evidence.ShowsBoundReceipt episode ∨
        episode.fall.attempted = true ∧ episode.boundGroundingReceiptId = 0 ∧
          episode.submittedGroundReceiptId = 0) := by
  unfold resolve at h
  obtain ⟨hpending, h⟩ := passed_of_decision h (by decide)
  obtain ⟨hidentity, h⟩ := passed_of_decision h (by decide)
  obtain ⟨-, h⟩ := passed_of_decision h (by decide)
  obtain ⟨-, h⟩ := passed_of_decision h (by decide)
  obtain ⟨-, h⟩ := passed_of_decision h (by decide)
  obtain ⟨-, h⟩ := passed_of_decision h (by decide)
  obtain ⟨-, h⟩ := passed_of_decision h (by decide)
  simp only [Bool.or_eq_true, not_or, Bool.not_eq_true', Bool.not_eq_false] at hpending
  simp only [Bool.or_eq_true, not_or, bne_iff_ne, not_not, Bool.and_eq_true, not_and,
    Bool.not_eq_true', Bool.not_eq_false, sameEpisodeScope_iff] at hidentity
  obtain ⟨⟨⟨⟨hbot, hmap⟩, hinstance⟩, havailable⟩, hscope⟩ := hidentity
  refine ⟨hpending.2, ⟨hbot, hmap, hinstance, havailable, hscope⟩, ?_⟩
  split at h
  · next hnone =>
    simp only [Bool.and_eq_true, beq_iff_eq] at hnone
    exact .inr ⟨resolveNativeFall_clear h, hnone.1.2, hnone.2⟩
  · exact .inl (resolveGroundReceipt_clear h)

/-- In every reachable episode with a pending exit, a bound receipt was accepted while this
exit was followed, armed at or after it and of its identity; a remembered submission was
accepted for the same identity; and the stale flag is cleared only on evidence of that
identity, by the bound receipt or by a native fall attempted since this exit with no receipt
submitted or bound. -/
theorem vehicle_exit_identity (calls : List Call) :
    let episode := run step {} calls
    (episode.exitPending = true → episode.boundGroundingReceiptId ≠ 0 →
      ∃ progress, episode.boundGroundingReceiptId = progress.receiptId ∧
        episode.boundGroundingReceiptArmedAtMs = progress.armedAtMs ∧
        progress.For episode.exit ∧
        Since step {} (Binds progress) (Follows episode.exit) calls) ∧
    (episode.exitPending = true → episode.submittedGroundReceiptId ≠ 0 →
      episode.submission.For episode.exit ∧
        Since step {} (Submits episode.submission) (fun _ => True) calls) ∧
    ∀ evidence, (resolve episode evidence).decision = .clearStaleLandingFlag →
      evidence.Of episode.exit ∧
        (evidence.ShowsBoundReceipt episode ∨
          episode.boundGroundingReceiptId = 0 ∧ episode.submittedGroundReceiptId = 0 ∧
            Since step {} AttemptsFall (Follows episode.exit) calls) := by
  intro episode
  have h := traced calls
  refine ⟨fun _ hbound => h.bound hbound, ?_, ?_⟩
  · intro hpending hsubmitted
    exact ⟨h.coherent.exited hpending hsubmitted, h.submitted hsubmitted⟩
  · intro evidence hclear
    obtain ⟨-, hof, hreceipt | ⟨hattempted, hbound, hsubmitted⟩⟩ := resolve_clear hclear
    · exact ⟨hof, .inl hreceipt⟩
    · exact ⟨hof, .inr ⟨hbound, hsubmitted, h.attempted hattempted⟩⟩

end TrinityCore.Bots.VehicleExitLanding
