import TrinityCore.Bots.MovementArbitration
import TrinityCore.Lib.StateMachine

/-!
# Movement leases

`Evaluate` and `Apply` of `BotMovementArbiter.h`: which requests take over the lease of a bot's
movement, and what a live lease is protected from.
-/

namespace TrinityCore.Bots.MovementArbitration

/-- `Priority`. -/
inductive Priority where
  | idle
  | route
  | formation
  | combat
  | support
  | mechanic
  | hazard
  | recovery
  deriving DecidableEq, Repr

/-- The value behind a priority. -/
def Priority.value : Priority → UInt8
  | .idle => 0
  | .route => 20
  | .formation => 40
  | .combat => 60
  | .support => 80
  | .mechanic => 100
  | .hazard => 120
  | .recovery => 140

/-- `Lease`, with its priority. -/
structure PriorityLease extends Lease where
  movementPriority : Priority := .idle

/-- `Request`. -/
structure Request where
  movementOwner : Owner := .none
  movementPriority : Priority := .idle
  expiresAtMs : UInt64 := 0
  movementScope : Scope := {}
  x : Float32 := 0
  y : Float32 := 0
  z : Float32 := 0
  dynamicTargetGuid : UInt64 := 0

/-- `Decision`. -/
inductive Decision where
  | acquire
  | refresh
  | preempt
  | preserveExisting
  | rejectInvalid
  deriving DecidableEq, Repr

/-- `ValidScope`. -/
def validScope (scope : Scope) : Bool := scope.mapId != 0xFFFFFFFF

/-- `SameDestination`, with its default tolerance. -/
def sameDestination (lease : Lease) (request : Request) : Bool :=
  if lease.dynamicTargetGuid ≠ 0 ∨ request.dynamicTargetGuid ≠ 0 then
    lease.dynamicTargetGuid != 0 && lease.dynamicTargetGuid == request.dynamicTargetGuid
  else
    decide ((lease.x - request.x).abs ≤ 0.1)
      && decide ((lease.y - request.y).abs ≤ 0.1)
      && decide ((lease.z - request.z).abs ≤ 0.1)

/-- `ValidRequest`. -/
def validRequest (request : Request) (nowMs : UInt64) : Bool :=
  request.movementOwner != .none
    && request.movementPriority != .idle
    && decide (nowMs < request.expiresAtMs)
    && validScope request.movementScope

/-- The request upgrades a point of its own lease to a live target. -/
def upgradesTarget (lease : Lease) (request : Request) : Bool :=
  lease.movementOwner == request.movementOwner
    && lease.dynamicTargetGuid == 0 && request.dynamicTargetGuid != 0

/-- `Evaluate`. -/
def evaluate (lease : PriorityLease) (request : Request) (nowMs : UInt64) : Decision :=
  if ¬validRequest request nowMs then .rejectInvalid
  else if lease.movementOwner = .none ∨ lease.expiresAtMs ≤ nowMs ∨
      ¬sameScope lease.movementScope request.movementScope then .acquire
  else if lease.movementOwner = request.movementOwner ∧
      sameDestination lease.toLease request then .refresh
  else if upgradesTarget lease.toLease request then .preempt
  else if lease.movementPriority.value < request.movementPriority.value then .preempt
  else .preserveExisting

/-- `Apply`. -/
def apply (request : Request) : PriorityLease where
  movementOwner := request.movementOwner
  movementPriority := request.movementPriority
  expiresAtMs := request.expiresAtMs
  movementScope := request.movementScope
  x := request.x
  y := request.y
  z := request.z
  dynamicTargetGuid := request.dynamicTargetGuid

/-- A request and the time it is made at. -/
structure Call where
  request : Request
  nowMs : UInt64

/-- One request, applied when it is admitted. -/
def submit (lease : PriorityLease) (call : Call) : PriorityLease :=
  match evaluate lease call.request call.nowMs with
  | .acquire => apply call.request
  | .refresh => apply call.request
  | .preempt => apply call.request
  | .preserveExisting => lease
  | .rejectInvalid => lease

/-- The lease after a history of requests. -/
def leaseAfter (history : List Call) : PriorityLease := StateMachine.run submit {} history

/-- The lease has not expired and the request is in its scope. -/
def Holds (lease : PriorityLease) (call : Call) : Prop :=
  call.nowMs < lease.expiresAtMs ∧ sameScope lease.movementScope call.request.movementScope = true

/-- The holder itself asks for less: again for the destination it has, or for a live target in
place of its point. -/
def Weakens (lease : PriorityLease) (call : Call) : Prop :=
  call.request.movementOwner = lease.movementOwner ∧
  call.request.movementPriority.value < lease.movementPriority.value ∧
  (sameDestination lease.toLease call.request = true ∨
    lease.dynamicTargetGuid = 0 ∧ call.request.dynamicTargetGuid ≠ 0)

variable {lease : PriorityLease} {call : Call}

/-- Only a valid request is applied. -/
theorem submit_eq (lease : PriorityLease) (call : Call) :
    submit lease call = lease ∨
      validRequest call.request call.nowMs = true ∧ submit lease call = apply call.request := by
  by_cases hvalid : validRequest call.request call.nowMs = true
  · rw [submit]
    split
    · exact .inr ⟨hvalid, rfl⟩
    · exact .inr ⟨hvalid, rfl⟩
    · exact .inr ⟨hvalid, rfl⟩
    · exact .inl rfl
    · exact .inl rfl
  · left
    rw [submit, evaluate, if_pos hvalid]

/-- A lease that is held and live is replaced by its holder, or by a higher priority. -/
theorem submit_cases (howner : lease.movementOwner ≠ .none) (hholds : Holds lease call) :
    submit lease call = lease ∨
    submit lease call = apply call.request ∧
      (lease.movementPriority.value < call.request.movementPriority.value ∨
        call.request.movementOwner = lease.movementOwner ∧
          (sameDestination lease.toLease call.request = true ∨
            lease.dynamicTargetGuid = 0 ∧ call.request.dynamicTargetGuid ≠ 0)) := by
  have hnever : ¬ (lease.movementOwner = .none ∨ lease.expiresAtMs ≤ call.nowMs ∨
      ¬sameScope lease.movementScope call.request.movementScope) := by
    simp [howner, hholds.1, hholds.2]
  rw [submit, evaluate, if_neg hnever]
  split_ifs with hvalid hrefresh hupgrade hhigher
  · exact .inr ⟨rfl, .inr ⟨hrefresh.1.symm, .inl hrefresh.2⟩⟩
  · simp only [upgradesTarget, Bool.and_eq_true, beq_iff_eq, bne_iff_ne] at hupgrade
    exact .inr ⟨rfl, .inr ⟨hupgrade.1.1.symm, .inr ⟨hupgrade.1.2, hupgrade.2⟩⟩⟩
  · exact .inr ⟨rfl, .inl hhigher⟩
  · exact .inl rfl
  · exact .inl rfl

/-- A lease without an owner is the empty one, which has expired at every time. -/
theorem expiresAtMs_leaseAfter (history : List Call)
    (hnone : (leaseAfter history).movementOwner = .none) :
    (leaseAfter history).expiresAtMs = 0 := by
  let inv (lease : PriorityLease) : Prop := lease.movementOwner = .none → lease.expiresAtMs = 0
  have hinit : inv {} := fun _ => rfl
  have hstep (lease : PriorityLease) (call : Call) (h : inv lease) : inv (submit lease call) := by
    rcases submit_eq lease call with heq | ⟨hvalid, heq⟩
    · rwa [heq]
    · simp only [validRequest, Bool.and_eq_true, bne_iff_ne] at hvalid
      rw [heq]
      exact fun hnone => absurd hnone hvalid.1.1.1
  exact StateMachine.run_invariant hinit hstep history hnone

/-- A live lease has a holder. -/
theorem movementOwner_ne_none {history : List Call} (hholds : Holds (leaseAfter history) call) :
    (leaseAfter history).movementOwner ≠ .none := by
  intro hnone
  have hlive := hholds.1
  rw [expiresAtMs_leaseAfter history hnone, UInt64.lt_iff_toNat_lt] at hlive
  exact absurd hlive (Nat.not_lt_zero _)

/-- One request against a lease that is held and live. -/
theorem protected_of_holds (howner : lease.movementOwner ≠ .none) (hholds : Holds lease call) :
    ((submit lease call).movementOwner ≠ lease.movementOwner →
      lease.movementPriority.value < (submit lease call).movementPriority.value) ∧
    ((submit lease call).movementPriority.value < lease.movementPriority.value →
      Weakens lease call) := by
  rcases submit_cases howner hholds with heq | ⟨heq, hhigher | ⟨hsame, hreason⟩⟩
  · rw [heq]
    exact ⟨fun hne => absurd rfl hne, fun hlt => absurd hlt (UInt8.lt_irrefl _)⟩
  · rw [heq]
    exact ⟨fun _ => hhigher, fun hlt => absurd hlt (UInt8.lt_asymm hhigher)⟩
  · rw [heq]
    exact ⟨fun hne => absurd hsame hne, fun hlt => ⟨hsame, hlt, hreason⟩⟩

/-- What a lease keeps over a stretch of requests: it is held, by its holder or by a higher
priority, and never by a lower one. -/
structure Kept (lease later : PriorityLease) : Prop where
  held : later.movementOwner ≠ .none
  priority : lease.movementPriority.value ≤ later.movementPriority.value
  owner : later.movementOwner ≠ lease.movementOwner →
    lease.movementPriority.value < later.movementPriority.value

theorem kept_refl (howner : lease.movementOwner ≠ .none) : Kept lease lease where
  held := howner
  priority := UInt8.le_refl _
  owner := fun hne => absurd rfl hne

/-- A request that does not weaken a live lease keeps it. -/
theorem Kept.submit {later : PriorityLease} (h : Kept lease later) (hholds : Holds later call)
    (hstrong : ¬Weakens later call) : Kept lease (submit later call) := by
  obtain ⟨howner, hlower⟩ := protected_of_holds h.held hholds
  have hpriority : later.movementPriority.value ≤
      (MovementArbitration.submit later call).movementPriority.value :=
    UInt8.not_lt.mp fun hlt => hstrong (hlower hlt)
  constructor
  case held =>
    rcases submit_eq later call with heq | ⟨hvalid, heq⟩
    · rw [heq]
      exact h.held
    · simp only [validRequest, Bool.and_eq_true, bne_iff_ne] at hvalid
      rw [heq]
      exact hvalid.1.1.1
  case priority => exact UInt8.le_trans h.priority hpriority
  case owner =>
    intro hne
    by_cases hsame : (MovementArbitration.submit later call).movementOwner = later.movementOwner
    · exact UInt8.lt_of_lt_of_le (h.owner fun heq => hne (hsame.trans heq)) hpriority
    · exact UInt8.lt_of_le_of_lt h.priority (howner hsame)

/-- A live lease, after any history: its holder gives way to a higher priority only, its priority
sinks only when the holder itself asks for less, and over any stretch of requests that hold it
live without such a request both are kept. -/
theorem lease_protected (history : List Call) (call : Call)
    (hholds : Holds (leaseAfter history) call) :
    ((submit (leaseAfter history) call).movementOwner ≠ (leaseAfter history).movementOwner →
      (leaseAfter history).movementPriority.value <
        (submit (leaseAfter history) call).movementPriority.value) ∧
    ((submit (leaseAfter history) call).movementPriority.value <
        (leaseAfter history).movementPriority.value → Weakens (leaseAfter history) call) ∧
    ∀ calls, StateMachine.Admits submit (fun lease call => Holds lease call ∧ ¬Weakens lease call)
        (leaseAfter history) calls →
      Kept (leaseAfter history) (leaseAfter (history ++ calls)) := by
  have howner := movementOwner_ne_none hholds
  obtain ⟨hchange, hlower⟩ := protected_of_holds howner hholds
  refine ⟨hchange, hlower, ?_⟩
  intro calls hcalls
  rw [leaseAfter, leaseAfter, StateMachine.run_append]
  exact StateMachine.run_invariant_of_admits (kept_refl howner)
    (fun _ _ h hok => h.submit hok.1 hok.2) calls hcalls

/-- A request for the live target 7 on the map of the scope. -/
def chase (owner : Owner) (priority : Priority) (nowMs : UInt64) : Call where
  request :=
    { movementOwner := owner
      movementPriority := priority
      expiresAtMs := 1000
      movementScope := { mapId := 0 }
      dynamicTargetGuid := 7 }
  nowMs := nowMs

/-- A hazard takes over from the mechanic. -/
theorem lease_protected_chase :
    (leaseAfter [chase .mechanic .mechanic 0]).movementPriority.value <
      (submit (leaseAfter [chase .mechanic .mechanic 0])
        (chase .hazard .hazard 1)).movementPriority.value :=
  (lease_protected [chase .mechanic .mechanic 0] (chase .hazard .hazard 1)
    ⟨by decide, by decide⟩).1 (by decide)

/-- The holder refreshes its own destination at a lower priority. -/
theorem refresh_weakens_lease :
    ¬ ∀ (history : List Call) (call : Call), Holds (leaseAfter history) call →
      (leaseAfter history).movementPriority.value ≤
        (submit (leaseAfter history) call).movementPriority.value := by
  intro h
  have hle := h [chase .mechanic .hazard 0] (chase .mechanic .route 1) ⟨by decide, by decide⟩
  exact absurd hle (by decide)

end TrinityCore.Bots.MovementArbitration
