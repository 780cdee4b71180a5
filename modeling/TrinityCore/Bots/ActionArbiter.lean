import Mathlib.Data.List.Sort
import Std.Data.ExtTreeMap.Lemmas
import TrinityCore.Bots.ActionLifecycle
import TrinityCore.Lib.BestByKey

/-!
# The decision kernel

`Kernel` of `BotActionArbiter.h`: producers submit candidates, `Resolve` masks them, ranks
them and runs their `Attempt` callbacks, and a commit claims resource lanes. A callback sees
the kernel it is called from and may call back into it; `world` is everything else it reads
and writes. Callbacks that begin, submit to or resolve the kernel whose candidates are being
iterated are outside the model.
-/

namespace TrinityCore.Bots.ActionArbitration

/-- `Priority`. -/
inductive Priority where
  | idle
  | routeMovement
  | combatMovement
  | trainedDamage
  | threatControl
  | support
  | interrupt
  | mechanic
  | survival
  | terminal
  deriving DecidableEq, Repr

/-- `uint8(priority)`. -/
def Priority.toUInt8 : Priority → UInt8
  | .idle => 0
  | .routeMovement => 20
  | .combatMovement => 40
  | .trainedDamage => 60
  | .threatControl => 80
  | .support => 100
  | .interrupt => 120
  | .mechanic => 140
  | .survival => 160
  | .terminal => 180

/-- `ResourceMask`: one bit a lane. -/
abbrev ResourceMask := UInt16

/-- `Conflicts`. -/
def conflicts (left right : ResourceMask) : Bool := left &&& right != 0

/-- `AdmissionClass`. -/
inductive AdmissionClass where
  | unknown
  | formationMovement
  | friendlyHealing
  | bagConsumable
  | offenseSuppression
  | defensiveSurvival
  | controllerCheckpointObservation
  deriving DecidableEq, Repr

/-- `AdmissionMetadata`. -/
structure AdmissionMetadata where
  classification : AdmissionClass := .unknown
  scopeKey : String := ""
  deriving DecidableEq, Repr

/-- `Candidate` without its `Attempt`. -/
structure Proposal where
  key : String
  source : String := ""
  actionPriority : Priority := .idle
  utilityScore : Float32 := 0
  policyScore : Float32 := 0
  policyWeight : Float32 := 0
  requiredResources : ResourceMask := 0
  expiresAtMs : UInt64 := 0
  retryBaseMs : UInt32 := 100
  retryMaxMs : UInt32 := 3000
  escalateAfter : UInt8 := 5
  allowed : Bool := true
  rejectReason : String := ""

/-- `Candidate::Score`. -/
def Proposal.score (candidate : Proposal) : Float32 :=
  candidate.utilityScore + candidate.policyScore * candidate.policyWeight

/-- `AdmissionPolicy`: the reason to reject a candidate, empty to admit it. -/
abbrev AdmissionPolicy := Proposal → Option AdmissionMetadata → String

/-- `CandidateTrace`. -/
structure CandidateTrace where
  key : String
  source : String
  status : String
  reason : String
  actionPriority : Priority
  score : Float32
  requiredResources : ResourceMask
  lifecyclePhase : Phase

/-- `Resolution`. -/
structure Resolution where
  anyCommitted : Bool := false
  terminal : Bool := false
  claimedResources : ResourceMask := 0
  committedCandidates : List String := []
  trace : List CandidateTrace := []

/-- The members of `Kernel` that resolving works on: all but the queued candidates. -/
structure Frame where
  nowMs : UInt64 := 0
  admissionMetadata : Std.ExtTreeMap String AdmissionMetadata := ∅
  lifecycles : Std.ExtTreeMap String Lifecycle := ∅
  lastResolution : Resolution := {}
  admissionPolicy : Option AdmissionPolicy := none

namespace Frame

/-- `_lifecycles[key]`, which creates a missing entry. -/
def lifecycle (frame : Frame) (key : String) : Lifecycle := frame.lifecycles.getD key {}

/-- Write the lifecycle of one key. -/
def setLifecycle (frame : Frame) (key : String) (lifecycle : Lifecycle) : Frame :=
  { frame with lifecycles := frame.lifecycles.insert key lifecycle }

/-- `Kernel::Observe`. -/
def observe (frame : Frame) (key : String) (outcome : Outcome) (nowMs : UInt64)
    (retryBaseMs retryMaxMs : UInt32) (escalateAfter : UInt8) : Frame :=
  frame.setLifecycle key
    ((frame.lifecycle key).observe outcome nowMs retryBaseMs retryMaxMs escalateAfter)

/-- `Kernel::ShouldEscalate`. -/
def shouldEscalate (frame : Frame) (key : String) (nowMs : UInt64)
    (minimumFailureDurationMs : UInt64 := 5000) : Bool :=
  match frame.lifecycles[key]? with
  | none => false
  | some lifecycle => lifecycle.shouldEscalate nowMs minimumFailureDurationMs

end Frame

/-- The calls into the kernel that a callback may make while it runs. -/
inductive KernelCall where
  | resetLifecycleHistory (nowMs : UInt64)
  | observe (key : String) (outcome : Outcome) (nowMs : UInt64)
      (retryBaseMs retryMaxMs : UInt32) (escalateAfter : UInt8)
  | markProgress (key : String) (nowMs : UInt64) (reason : String)
  | setAdmissionPolicy (policy : Option AdmissionPolicy)
  | setCandidateAdmission (key : String) (admission : AdmissionMetadata)

/-- What one call does. -/
def Frame.call (frame : Frame) : KernelCall → Frame
  | .resetLifecycleHistory nowMs => { frame with lifecycles := ∅, nowMs := nowMs }
  | .observe key outcome nowMs retryBaseMs retryMaxMs escalateAfter =>
    frame.observe key outcome nowMs retryBaseMs retryMaxMs escalateAfter
  | .markProgress key nowMs reason =>
    frame.observe key (.progressed reason) nowMs 100 3000 5
  | .setAdmissionPolicy policy => { frame with admissionPolicy := policy }
  | .setCandidateAdmission key admission =>
    { frame with admissionMetadata := frame.admissionMetadata.insert key admission }

/-- What running a callback yields: its outcome, its calls into the kernel in order, and the
world it leaves. -/
structure Reply (World : Type) where
  outcome : Outcome
  calls : List KernelCall := []
  world : World

/-- `Attempt`, given the world and the kernel it is called in. -/
abbrev Attempt (World : Type) := World → Frame → Reply World

/-- `Candidate`; the callback may be empty. -/
structure Candidate (World : Type) extends Proposal where
  attempt : Option (Attempt World) := none

/-- A candidate `Submit` accepts: it has a key and a callback. -/
structure Accepted (World : Type) extends Proposal where
  attempt : Attempt World
  keyed : key ≠ ""

/-- The test that opens `Submit`. -/
def Candidate.accept? {World : Type} (candidate : Candidate World) : Option (Accepted World) :=
  match candidate.attempt with
  | none => none
  | some attempt =>
    if keyed : candidate.key = "" then none
    else some { toProposal := candidate.toProposal, attempt := attempt, keyed := keyed }

/-- `QueuedCandidate`. -/
structure Queued (World : Type) where
  value : Accepted World
  serial : Nat

variable {World : Type}

/-- `Better`. -/
def better (left right : Queued World) : Bool :=
  if left.value.actionPriority ≠ right.value.actionPriority then
    decide (left.value.actionPriority.toUInt8 > right.value.actionPriority.toUInt8)
  else if left.value.score != right.value.score then
    decide (left.value.score > right.value.score)
  else if left.value.source ≠ right.value.source then
    decide (left.value.source < right.value.source)
  else if left.value.key ≠ right.value.key then decide (left.value.key < right.value.key)
  else decide (left.serial < right.serial)

/-- The key a queued candidate waits under. -/
def Queued.key (queued : Queued World) : String := queued.value.key

/-- Of two forms of one candidate the better one, under the serial of the earlier. -/
def keepBetter (existing queued : Queued World) : Queued World :=
  if better queued existing then { queued with serial := existing.serial } else existing

/-- `Submit` on the queue: append a new key, or keep the better form of a known one. -/
def enqueue (queued : Queued World) : List (Queued World) → List (Queued World) :=
  BestByKey.upsert Queued.key keepBetter queued

theorem key_keepBetter (existing queued : Queued World) (hsame : existing.key = queued.key) :
    (keepBetter existing queued).key = queued.key := by
  unfold keepBetter
  split
  · rfl
  · exact hsame

/-- No key waits twice after a submission. -/
theorem nodup_enqueue (queued : Queued World) {candidates : List (Queued World)}
    (hnodup : (candidates.map Queued.key).Nodup) :
    ((enqueue queued candidates).map Queued.key).Nodup :=
  BestByKey.nodup_map_key_upsert key_keepBetter queued hnodup

/-- `Kernel`; no two queued candidates share a key. -/
structure Kernel (World : Type) extends Frame where
  nextSerial : Nat := 0
  candidates : List (Queued World) := []
  distinct : (candidates.map Queued.key).Nodup := by exact List.nodup_nil

namespace Kernel

variable (kernel : Kernel World)

/-- `Kernel::Begin`. -/
def begin (nowMs : UInt64) : Kernel World where
  nowMs := nowMs
  lifecycles := kernel.lifecycles

/-- `Kernel::SetAdmissionPolicy`. -/
def setAdmissionPolicy (policy : Option AdmissionPolicy) : Kernel World :=
  { kernel with admissionPolicy := policy }

/-- `Kernel::SetCandidateAdmission`. -/
def setCandidateAdmission (key : String) (admission : AdmissionMetadata) : Kernel World :=
  { kernel with admissionMetadata := kernel.admissionMetadata.insert key admission }

/-- `Kernel::Submit`. -/
def submit (candidate : Candidate World) : Kernel World :=
  match candidate.accept? with
  | none => kernel
  | some value =>
    { kernel with
      nextSerial := kernel.nextSerial + 1
      candidates := enqueue ⟨value, kernel.nextSerial⟩ kernel.candidates
      distinct := nodup_enqueue _ kernel.distinct }

/-- Submitting one candidate after another. -/
def submitAll (candidates : List (Candidate World)) : Kernel World :=
  candidates.foldl submit kernel

end Kernel

namespace Frame

/-- What the admission policy says of a candidate; no policy admits everything. -/
def admissionReason (frame : Frame) (candidate : Proposal) : String :=
  match frame.admissionPolicy with
  | none => ""
  | some policy => policy candidate frame.admissionMetadata[candidate.key]?

/-- The hard masks of `Resolve`, in order: status and reason of the first that applies. -/
def mask? (frame : Frame) (candidate : Proposal) : Option (String × String) :=
  if frame.admissionReason candidate ≠ "" then
    some ("hard_masked", frame.admissionReason candidate)
  else if !candidate.allowed then
    some ("hard_masked",
      if candidate.rejectReason = "" then "hard_safety_mask" else candidate.rejectReason)
  else if candidate.expiresAtMs ≠ 0 ∧ candidate.expiresAtMs ≤ frame.nowMs then
    some ("expired", "candidate_expired")
  else if (frame.lifecycle candidate.key).retryAfterMs > frame.nowMs then
    some ("backoff", (frame.lifecycle candidate.key).lastReason)
  else if conflicts candidate.requiredResources frame.lastResolution.claimedResources then
    some ("resource_conflict", "resource_lane_owned")
  else none

/-- `Trace`. -/
def trace (frame : Frame) (candidate : Proposal) (status reason : String) (phase : Phase) :
    Frame :=
  let row : CandidateTrace :=
    { key := candidate.key
      source := candidate.source
      status := status
      reason := reason
      actionPriority := candidate.actionPriority
      score := candidate.score
      requiredResources := candidate.requiredResources
      lifecyclePhase := phase }
  { frame with
    lastResolution := { frame.lastResolution with trace := frame.lastResolution.trace ++ [row] } }

/-- The round of a candidate starts with its lifecycle back at `Proposed`. -/
def propose (frame : Frame) (candidate : Proposal) : Frame :=
  frame.setLifecycle candidate.key
    { frame.lifecycle candidate.key with
      escalateAfter := candidate.escalateAfter
      currentPhase := .proposed }

/-- The lifecycle of a candidate that passed the masks, just before its callback runs. -/
def select (frame : Frame) (candidate : Proposal) : Frame :=
  let lifecycle := frame.lifecycle candidate.key
  frame.setLifecycle candidate.key
    { lifecycle with
      currentPhase := .selected
      attemptCount := lifecycle.attemptCount + 1
      lastAttemptAtMs := frame.nowMs }

/-- What `Resolve` records of an attempt once its callback has returned. -/
def conclude (frame : Frame) (candidate : Proposal) (outcome : Outcome) : Frame :=
  let frame := frame.observe candidate.key outcome frame.nowMs candidate.retryBaseMs
    candidate.retryMaxMs candidate.escalateAfter
  let frame := frame.trace candidate "attempted" outcome.reason outcome.lifecyclePhase
  let resolution := frame.lastResolution
  match outcome.result with
  | .committed =>
    { frame with
      lastResolution :=
        { resolution with
          anyCommitted := true
          claimedResources := resolution.claimedResources ||| candidate.requiredResources
          committedCandidates := resolution.committedCandidates ++ [candidate.key] } }
  | .terminal => { frame with lastResolution := { resolution with terminal := true } }
  | _ => frame

end Frame

/-- One call of an `Attempt`: the candidate, the kernel it was called in and its reply. -/
structure Attempted (World : Type) where
  candidate : Accepted World
  frame : Frame
  reply : Reply World

/-- Run the callback of a candidate that passed the masks. -/
def Frame.attempt (frame : Frame) (candidate : Accepted World) (world : World) :
    Attempted World :=
  let frame := frame.select candidate.toProposal
  { candidate := candidate, frame := frame, reply := candidate.attempt world frame }

/-- The kernel once the callback has returned and its outcome is recorded. -/
def Attempted.after (attempted : Attempted World) : Frame :=
  (attempted.reply.calls.foldl Frame.call attempted.frame).conclude
    attempted.candidate.toProposal attempted.reply.outcome

/-- What the loop leaves behind: the kernel, the world, and the attempts it made. -/
structure Resolved (World : Type) where
  frame : Frame
  world : World
  attempts : List (Attempted World) := []

/-- The loop of `Resolve` over the ranked candidates. The attempts are listed for the reader;
the loop does not look at them. -/
def resolveLoop : List (Accepted World) → Frame → World → Resolved World
  | [], frame, world => { frame := frame, world := world }
  | candidate :: rest, frame, world =>
    let frame := frame.propose candidate.toProposal
    match frame.mask? candidate.toProposal with
    | some (status, reason) =>
      resolveLoop rest (frame.trace candidate.toProposal status reason .deferred) world
    | none =>
      let attempted := frame.attempt candidate world
      if attempted.reply.outcome.result = .terminal then
        { frame := attempted.after, world := attempted.reply.world, attempts := [attempted] }
      else
        let resolved := resolveLoop rest attempted.after attempted.reply.world
        { resolved with attempts := attempted :: resolved.attempts }

namespace Kernel

/-- The candidates in the order `stable_sort` by `Better` puts them. -/
def ranked (kernel : Kernel World) : List (Accepted World) :=
  (kernel.candidates.insertionSort fun left right => better right left = false).map Queued.value

/-- `Kernel::Resolve` with the world it leaves and the attempts it made. -/
def resolve (kernel : Kernel World) (world : World) :
    Kernel World × World × List (Attempted World) :=
  let resolved := resolveLoop kernel.ranked kernel.toFrame world
  ({ toFrame := resolved.frame, nextSerial := kernel.nextSerial }, resolved.world,
    resolved.attempts)

end Kernel

end TrinityCore.Bots.ActionArbitration
