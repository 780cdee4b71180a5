import TrinityCore.Lib.StateMachine
import TrinityCore.Utilities.EventProcessor

/-!
# The life of an event

What the log of an event processor can hold, and which events its queue holds: an invariant of
every step, kept by the insertion, the removal and the callbacks a step is made of.
-/

namespace TrinityCore.Utilities

open EventProcessor Function List

/-- The event an action happens to. -/
def Action.event : Action → Nat
  | .executed event _ _ _ _ => event
  | .abortScheduled event => event
  | .aborted event => event
  | .destroyed event => event

/-- The order of (time, insertion). -/
def Sooner (x y : Nat × Nat) : Prop := x.1 < y.1 ∨ x.1 = y.1 ∧ x.2 < y.2

variable {x y : Nat × Nat} {eTime : Nat} {s₂ s₁ : EventProcessor} {rest : List (Nat × Nat)}

theorem Sooner.fst_le (h : Sooner x y) : x.1 ≤ y.1 := by
  cases h with
  | inl hlt => exact Nat.le_of_lt hlt
  | inr heq => exact Nat.le_of_eq heq.1

/-- What may come after an action: nothing happens to a destroyed event, an event is aborted
once, it is not executed after its abort was scheduled, and in one `Update` events are executed
in the order of (time, insertion). -/
def Follows : Action → Action → Prop
  | .destroyed event, later => later.event ≠ event
  | .aborted event, later =>
    later ≠ .aborted event ∧ ∀ update execTime inserted now,
      later ≠ .executed event update execTime inserted now
  | .abortScheduled event, later => ∀ update execTime inserted now,
      later ≠ .executed event update execTime inserted now
  | .executed _ update execTime inserted _, .executed _ update' execTime' inserted' _ =>
    update = update' → Sooner (execTime, inserted) (execTime', inserted')
  | _, _ => True

/-- An event is not executed before its time. -/
def Action.InTime (time : Nat) : Action → Prop
  | .executed _ _ execTime _ now => execTime ≤ now ∧ now ≤ time
  | _ => True

namespace EventProcessor

variable {s : EventProcessor} {event : Nat} {aborting : Option Nat}

/-- The time of a queued event, and the place of its insertion. -/
def place (s : EventProcessor) (x : Nat × Nat) : Nat × Nat := (x.1, (s.objects x.2).inserted)

/-- The invariant of an event processor. The state of an event whose `Abort` goes on is not yet
that of an aborted one. -/
structure Inv (s : EventProcessor) (aborting : Option Nat) : Prop where
  notCrashed : s.mode ≠ .crashed
  passed : s.mode = .idle ∨ s.mode = .updating → s.passed = []
  nodup : (s.queue.map Prod.snd).Nodup
  execTime : ∀ x ∈ s.queue, (s.objects x.2).execTime = x.1
  created : ∀ x ∈ s.queue, x.2 < s.created
  inserted : ∀ x ∈ s.queue, (s.objects x.2).inserted < s.insertions
  order : s.queue.Pairwise fun x y => Sooner (s.place x) (s.place y)
  log : s.log.Pairwise Follows
  inTime : ∀ a ∈ s.log, a.InTime s.time
  known : ∀ a ∈ s.log, a.event < s.created
  aborted : ∀ e, aborting ≠ some e → Action.aborted e ∈ s.log →
    (s.objects e).abortState = .STATE_ABORTED
  scheduled : ∀ e, Action.abortScheduled e ∈ s.log → (s.objects e).abortState ≠ .STATE_RUNNING
  live : ∀ x ∈ s.events, Action.destroyed x.2 ∉ s.log
  livePassed : s.mode ≠ .killing true → ∀ x ∈ s.passed, Action.destroyed x.2 ∉ s.log
  update : ∀ e u t i n, Action.executed e u t i n ∈ s.log → u ≤ s.updates
  sooner : s.mode = .updating → ∀ e t i n, Action.executed e s.updates t i n ∈ s.log →
    ∀ x ∈ s.events, Sooner (t, i) (s.place x)

/-- An event that was taken out of the queue, and not destroyed. -/
structure InHand (s : EventProcessor) (event : Nat) : Prop where
  created : event < s.created
  queued : ∀ x ∈ s.queue, x.2 ≠ event
  live : Action.destroyed event ∉ s.log

/-- Where an event may be inserted: at a later time during `Update`, and at an iterator that
stands on an event during `KillAllEvents`. -/
def Accepts (s : EventProcessor) (eTime : Nat) : Prop :=
  (s.mode = .updating → s.time < eTime) ∧ ∀ force, s.mode = .killing force → s.events ≠ []

/-! ### Insertion -/

theorem insertPair_cases (s : EventProcessor) (x : Nat × Nat) :
    (∃ force y rest, s.mode = .killing force ∧ s.events = y :: rest ∧ x.1 < y.1 ∧
      s.insertPair x = { s with passed := insertLast Prod.fst x s.passed }) ∨
    ((∀ force y rest, s.mode = .killing force → s.events = y :: rest → y.1 ≤ x.1) ∧
      s.insertPair x = { s with events := insertLast Prod.fst x s.events }) := by
  unfold insertPair
  split
  · rename_i force y rest hmode hevents
    by_cases hlt : x.1 < y.1
    · rw [if_pos hlt]
      exact .inl ⟨force, y, rest, hmode, hevents, hlt, rfl⟩
    · rw [if_neg hlt]
      refine Or.inr ⟨fun force' y' rest' _ hevents' => ?_, by rw [hevents]⟩
      rw [hevents] at hevents'
      cases hevents'
      exact Nat.le_of_not_lt hlt
  · rename_i hother
    exact .inr ⟨fun force y rest hmode hevents => absurd hevents (hother force y rest hmode), rfl⟩

theorem insertPair_eq (s : EventProcessor) (x : Nat × Nat) :
    s.insertPair x =
      { s with passed := (s.insertPair x).passed, events := (s.insertPair x).events } := by
  cases insertPair_cases s x with
  | inl hpassed =>
    obtain ⟨_, _, _, _, _, _, heq⟩ := hpassed
    rw [heq]
  | inr hevents => rw [hevents.2]

theorem mem_passed_insertPair (h : y ∈ (s.insertPair x).passed) : y = x ∨ y ∈ s.passed := by
  cases insertPair_cases s x with
  | inl hpassed =>
    obtain ⟨_, _, _, _, _, _, heq⟩ := hpassed
    rw [heq] at h
    exact mem_insertLast.mp h
  | inr hevents =>
    rw [hevents.2] at h
    exact .inr h

theorem mem_events_insertPair (h : y ∈ (s.insertPair x).events) : y = x ∨ y ∈ s.events := by
  cases insertPair_cases s x with
  | inl hpassed =>
    obtain ⟨_, _, _, _, _, _, heq⟩ := hpassed
    rw [heq] at h
    exact .inr h
  | inr hevents =>
    rw [hevents.2] at h
    exact mem_insertLast.mp h

/-- Wherever the iterator stands, the pair goes behind those whose time is not later. -/
theorem queue_insertPair (hsorted : s.queue.Pairwise fun y z => y.1 ≤ z.1)
    (hpassed : (∀ force, s.mode ≠ .killing force) → s.passed = [])
    (hkill : ∀ force, s.mode = .killing force → s.events ≠ []) :
    (s.insertPair x).queue = insertLast Prod.fst x s.queue := by
  cases insertPair_cases s x with
  | inl hbefore =>
    obtain ⟨force, y, rest, _, hevents, hlt, heq⟩ := hbefore
    rw [heq, queue, queue, hevents]
    exact (insertLast_append_of_lt hlt).symm
  | inr hbehind =>
    obtain ⟨hle, heq⟩ := hbehind
    rw [heq, queue, queue]
    refine (insertLast_append_of_le fun y hy => ?_).symm
    by_cases hmode : ∀ force, s.mode ≠ .killing force
    · rw [hpassed hmode] at hy
      exact nomatch hy
    · obtain ⟨force, hforce⟩ := not_forall_not.mp hmode
      cases hevents : s.events with
      | nil => exact absurd hevents (hkill force hforce)
      | cons z rest =>
        rw [queue, hevents, pairwise_append] at hsorted
        exact Nat.le_trans (hsorted.2.2 y hy z mem_cons_self) (hle force z rest hforce hevents)

/-- Where an insertion leaves the pairs. -/
theorem insertPair_queue {x : Nat × Nat} (hsorted : s.queue.Pairwise fun y z => y.1 ≤ z.1)
    (hpassed : (∀ force, s.mode ≠ .killing force) → s.passed = [])
    (hkill : ∀ force, s.mode = .killing force → s.events ≠ []) :
    ∃ passed events, s.insertPair x = { s with passed := passed, events := events } ∧
      passed ++ events = insertLast Prod.fst x s.queue ∧
      (∀ y ∈ passed, y = x ∨ y ∈ s.passed) ∧ (∀ y ∈ events, y = x ∨ y ∈ s.events) ∧
      ((∀ force, s.mode ≠ .killing force) → passed = []) := by
  refine ⟨_, _, insertPair_eq s x, queue_insertPair hsorted hpassed hkill,
    fun _ => mem_passed_insertPair, fun _ => mem_events_insertPair, fun hmode => ?_⟩
  cases insertPair_cases s x with
  | inl hbefore =>
    obtain ⟨force, _, _, hforce, _⟩ := hbefore
    exact absurd hforce (hmode force)
  | inr hbehind =>
    rw [hbehind.2]
    exact hpassed hmode

theorem Inv.passed_eq (h : Inv s aborting) (hmode : ∀ force, s.mode ≠ .killing force) : s.passed = [] := by
  apply h.passed
  cases hcase : s.mode with
  | idle => exact .inl rfl
  | updating => exact .inr rfl
  | killing force => exact absurd hcase (hmode force)
  | crashed => exact absurd hcase h.notCrashed

/-- What `AddEvent` writes before it inserts the pair. -/
def touch (s : EventProcessor) (event eTime : Nat) (setAddtime : Bool) : EventProcessor :=
  { s with
    objects := Function.update s.objects event { s.objects event with
      addTime := if setAddtime then s.time else (s.objects event).addTime
      execTime := eTime
      inserted := s.insertions }
    insertions := s.insertions + 1 }

theorem addEvent_touch (s : EventProcessor) (event eTime : Nat) (setAddtime : Bool) :
    s.addEvent event eTime setAddtime =
      (s.touch event eTime setAddtime).insertPair (eTime, event) := rfl

/-- An event in hand is inserted. -/
theorem Inv.addEvent (h : Inv s aborting) (hhand : InHand s event) {eTime : Nat}
    (haccepts : Accepts s eTime) (setAddtime : Bool) :
    Inv (s.addEvent event eTime setAddtime) aborting := by
  obtain ⟨passed, events, hinsert, hall, hinPassed, hinEvents, hnone⟩ :=
    @insertPair_queue (s.touch event eTime setAddtime) (eTime, event)
      (h.order.imp fun hsooner => hsooner.fst_le) h.passed_eq haccepts.2
  change passed ++ events = insertLast Prod.fst _ s.queue at hall
  rw [addEvent_touch, hinsert, touch]
  obtain ⟨object, hobject⟩ : ∃ object : BasicEvent, { s.objects event with
    addTime := if setAddtime then s.time else (s.objects event).addTime
    execTime := eTime
    inserted := s.insertions } = object := ⟨_, rfl⟩
  rw [hobject]
  have hother : ∀ y ∈ s.queue, Function.update s.objects event object y.2 = s.objects y.2 :=
    fun y hy => update_of_ne (hhand.queued y hy) _ _
  have hself : Function.update s.objects event object event = object := Function.update_self _ _ _
  have hstate : ∀ e, (Function.update s.objects event object e).abortState =
      (s.objects e).abortState := by
    intro e
    by_cases he : e = event
    · rw [he, hself, ← hobject]
    · rw [update_of_ne he]
  have hmem : ∀ y ∈ passed ++ events, y = (eTime, event) ∨ y ∈ s.queue := fun y hy => by
    rw [hall] at hy
    exact mem_insertLast.mp hy
  constructor
  · exact h.notCrashed
  · intro hmode
    apply hnone
    intro force hforce
    cases hmode with
    | inl hidle => exact nomatch hidle.symm.trans hforce
    | inr hupdating => exact nomatch hupdating.symm.trans hforce
  · show ((passed ++ events).map Prod.snd).Nodup
    rw [hall, ((perm_insertLast Prod.fst (eTime, event) s.queue).map Prod.snd).nodup_iff,
      map_cons, nodup_cons]
    refine ⟨fun hin => ?_, h.nodup⟩
    obtain ⟨y, hy, heq⟩ := mem_map.mp hin
    exact hhand.queued y hy heq
  · intro y hy
    show (Function.update s.objects event object y.2).execTime = y.1
    cases hmem y hy with
    | inl heq => rw [heq, hself, ← hobject]
    | inr hold =>
      rw [hother y hold]
      exact h.execTime y hold
  · intro y hy
    cases hmem y hy with
    | inl heq => exact heq ▸ hhand.created
    | inr hold => exact h.created y hold
  · intro y hy
    show (Function.update s.objects event object y.2).inserted < s.insertions + 1
    cases hmem y hy with
    | inl heq =>
      rw [heq, hself, ← hobject]
      exact Nat.lt_succ_self _
    | inr hold =>
      rw [hother y hold]
      exact Nat.lt_succ_of_lt (h.inserted y hold)
  · show (passed ++ events).Pairwise _
    rw [hall]
    refine pairwise_insertLast (fun _ _ hsooner => hsooner.fst_le) (fun y hy hle => ?_)
      (fun _ _ hlt => .inl hlt) (h.order.imp_of_mem fun hy hz hsooner => ?_)
    · show Sooner (y.1, (Function.update s.objects event object y.2).inserted)
        (eTime, (Function.update s.objects event object event).inserted)
      rw [hother y hy, hself, ← hobject]
      cases Nat.lt_or_eq_of_le hle with
      | inl hlt => exact .inl hlt
      | inr heq => exact .inr ⟨heq, h.inserted y hy⟩
    · show Sooner (_, (Function.update s.objects event object _).inserted)
        (_, (Function.update s.objects event object _).inserted)
      rw [hother _ hy, hother _ hz]
      exact hsooner
  · exact h.log
  · exact h.inTime
  · exact h.known
  · intro e hother he
    exact (hstate e).trans (h.aborted e hother he)
  · intro e he hrunning
    exact h.scheduled e he ((hstate e).symm.trans hrunning)
  · intro y hy
    cases hinEvents y hy with
    | inl heq => exact heq ▸ hhand.live
    | inr hold => exact h.live y hold
  · intro hmode y hy
    cases hinPassed y hy with
    | inl heq => exact heq ▸ hhand.live
    | inr hold => exact h.livePassed hmode y hold
  · exact h.update
  · intro hmode e t i n hlogged y hy
    cases hinEvents y hy with
    | inl heq =>
      obtain ⟨hle, hnow⟩ := h.inTime _ hlogged
      rw [heq]
      exact .inl (Nat.lt_of_le_of_lt (Nat.le_trans hle hnow) (haccepts.1 hmode))
    | inr hold =>
      show Sooner (t, i) (y.1, (Function.update s.objects event object y.2).inserted)
      rw [hother y (mem_append_right _ hold)]
      exact h.sooner hmode e t i n hlogged y hold

/-- The processor with an event created, but not added. -/
def create (s : EventProcessor) : EventProcessor :=
  { s with
    created := s.created + 1
    objects := update s.objects s.created {} }

theorem objects_create (s : EventProcessor) {e : Nat} (he : e < s.created) :
    s.create.objects e = s.objects e := update_of_ne (Nat.ne_of_lt he) _ _

theorem Inv.create (h : Inv s aborting) : Inv s.create aborting := by
  have hold : ∀ x ∈ s.queue, s.create.objects x.2 = s.objects x.2 := fun x hx =>
    s.objects_create (h.created x hx)
  have hlogged : ∀ a ∈ s.log, s.create.objects a.event = s.objects a.event := fun a ha =>
    s.objects_create (h.known a ha)
  constructor
  · exact h.notCrashed
  · exact h.passed
  · exact h.nodup
  · intro x hx
    rw [hold x hx]
    exact h.execTime x hx
  · exact fun x hx => Nat.lt_succ_of_lt (h.created x hx)
  · intro x hx
    rw [hold x hx]
    exact h.inserted x hx
  · apply h.order.imp_of_mem
    intro x y hx hy hsooner
    rw [place, place, hold x hx, hold y hy]
    exact hsooner
  · exact h.log
  · exact h.inTime
  · exact fun a ha => Nat.lt_succ_of_lt (h.known a ha)
  · intro e hother he
    exact (congrArg BasicEvent.abortState (hlogged _ he)).trans (h.aborted e hother he)
  · intro e he hrunning
    exact h.scheduled e he ((congrArg BasicEvent.abortState (hlogged _ he)).symm.trans hrunning)
  · exact h.live
  · exact h.livePassed
  · exact h.update
  · intro hmode e t i n hin x hx
    rw [place, hold x (mem_append_right _ hx)]
    exact h.sooner hmode e t i n hin x hx

theorem Inv.inHand_create (h : Inv s aborting) : InHand s.create s.created where
  created := Nat.lt_succ_self _
  queued x hx := Nat.ne_of_lt (h.created x hx)
  live hin := Nat.lt_irrefl _ (h.known _ hin)

/-- Another action is logged. -/
theorem InHand.logged (hhand : InHand s event) (calls : Nat) {a : Action}
    (ha : Action.destroyed event ≠ a) :
    InHand { s with calls := calls, log := s.log ++ [a] } event where
  created := hhand.created
  queued := hhand.queued
  live := by simp [hhand.live, ha]

/-- From `s` to `s'` new events were added. -/
structure Adds (s s' : EventProcessor) : Prop where
  mode : s'.mode = s.mode
  time : s'.time = s.time
  log : s'.log = s.log
  created : s.created ≤ s'.created
  state : ∀ e < s.created, (s'.objects e).abortState = (s.objects e).abortState
  queued : ∀ x ∈ s'.queue, x ∈ s.queue ∨ s.created ≤ x.2
  front : ∀ force x rest, s.mode = .killing force → s.events = x :: rest →
    ∃ rest', s'.events = x :: rest'

variable {s' s'' : EventProcessor}

theorem Adds.refl (s : EventProcessor) : Adds s s :=
  ⟨rfl, rfl, rfl, Nat.le_refl _, fun _ _ => rfl, fun _ hx => .inl hx,
    fun _ _ rest _ hevents => ⟨rest, hevents⟩⟩

theorem Adds.trans (h : Adds s s') (h' : Adds s' s'') : Adds s s'' where
  mode := h'.mode.trans h.mode
  time := h'.time.trans h.time
  log := h'.log.trans h.log
  created := Nat.le_trans h.created h'.created
  state e he := (h'.state e (Nat.lt_of_lt_of_le he h.created)).trans (h.state e he)
  queued x hx := by
    cases h'.queued x hx with
    | inl hold => exact h.queued x hold
    | inr hnew => exact .inr (Nat.le_trans h.created hnew)
  front force x rest hmode hevents := by
    obtain ⟨rest', hevents'⟩ := h.front force x rest hmode hevents
    exact h'.front force x rest' (h.mode.trans hmode) hevents'

/-- An event in hand stays there. -/
theorem Adds.inHand (h : Adds s s') (hhand : InHand s event) : InHand s' event where
  created := Nat.lt_of_lt_of_le hhand.created h.created
  queued x hx := by
    cases h.queued x hx with
    | inl hold => exact hhand.queued x hold
    | inr hnew => exact Nat.ne_of_gt (Nat.lt_of_lt_of_le hhand.created hnew)
  live := by
    rw [h.log]
    exact hhand.live

/-- What `AddEvent` writes. -/
theorem addEvent_eq (s : EventProcessor) (event eTime : Nat) (setAddtime : Bool) :
    ∃ passed events object, s.addEvent event eTime setAddtime =
      { s with
        passed := passed
        events := events
        objects := update s.objects event object
        insertions := s.insertions + 1 } ∧
      object.abortState = (s.objects event).abortState ∧
      (∀ x ∈ passed ++ events, x = (eTime, event) ∨ x ∈ s.queue) ∧
      ∀ force x rest, s.mode = .killing force → s.events = x :: rest →
        ∃ rest', events = x :: rest' := by
  rw [addEvent_touch, insertPair_eq]
  refine ⟨_, _, _, rfl, rfl, fun x hx => ?_, fun force x rest hmode hevents => ?_⟩
  · cases mem_append.mp hx with
    | inl hin => cases mem_passed_insertPair hin with
      | inl heq => exact .inl heq
      | inr hold => exact .inr (mem_append_left _ hold)
    | inr hin => cases mem_events_insertPair hin with
      | inl heq => exact .inl heq
      | inr hold => exact .inr (mem_append_right _ hold)
  · have hevents₁ : (s.touch event eTime setAddtime).events = x :: rest := hevents
    cases insertPair_cases (s.touch event eTime setAddtime) (eTime, event) with
    | inl hbefore =>
      obtain ⟨_, _, _, _, _, _, heq⟩ := hbefore
      rw [heq]
      exact ⟨rest, hevents₁⟩
    | inr hbehind =>
      rw [hbehind.2, hevents₁]
      exact ⟨_, if_pos (hbehind.1 force x rest hmode hevents₁)⟩

theorem mode_addEvent (s : EventProcessor) (event eTime : Nat) (setAddtime : Bool) :
    (s.addEvent event eTime setAddtime).mode = s.mode := by
  obtain ⟨passed, events, object, heq, -⟩ := addEvent_eq s event eTime setAddtime
  rw [heq]

/-- A new event is added. -/
theorem Inv.addNew (h : Inv s aborting) (haccepts : Accepts s eTime) :
    Inv (s.addNew eTime) aborting ∧ Adds s (s.addNew eTime) := by
  refine ⟨h.create.addEvent h.inHand_create haccepts true, ?_⟩
  obtain ⟨passed, events, object, heq, -, hmem, hfront⟩ := addEvent_eq s.create s.created eTime true
  show Adds s (s.create.addEvent s.created eTime true)
  rw [heq]
  refine ⟨rfl, rfl, rfl, Nat.le_succ _, fun e he => ?_, fun x hx => ?_, hfront⟩
  · show (Function.update s.create.objects s.created object e).abortState = _
    rw [update_of_ne (Nat.ne_of_lt he), s.objects_create he]
  · cases hmem x hx with
    | inl hnew => exact .inr (Nat.le_of_eq (congrArg Prod.snd hnew).symm)
    | inr hold => exact .inl hold

/-- A virtual function adds events. -/
theorem Inv.addLater (h : Inv s aborting) (hkill : ∀ force, s.mode = .killing force → s.events ≠ [])
    (delays : List Nat) : Inv (s.addLater delays) aborting ∧ Adds s (s.addLater delays) := by
  induction delays generalizing s with
  | nil => exact ⟨h, Adds.refl s⟩
  | cons delay delays ih =>
    have hlater : Accepts s (s.time + 1 + delay) := ⟨fun _ => by omega, hkill⟩
    obtain ⟨h₁, hadds⟩ := h.addNew hlater
    have hkill₁ : ∀ force, (s.addNew (s.time + 1 + delay)).mode = .killing force →
        (s.addNew (s.time + 1 + delay)).events ≠ [] := by
      intro force hforce
      rw [hadds.mode] at hforce
      cases hevents : s.events with
      | nil => exact absurd hevents (hkill force hforce)
      | cons x rest =>
        obtain ⟨rest', heq⟩ := hadds.front force x rest hforce hevents
        rw [heq]
        exact cons_ne_nil x rest'
    obtain ⟨h₂, hrest⟩ := ih h₁ hkill₁
    exact ⟨h₂, hadds.trans hrest⟩

/-! ### What else a step is made of -/

section

variable (h : Inv s aborting)
include h

/-- An action is logged. -/
theorem Inv.logged {aborting' : Option Nat}
    (haborting : ∀ e, aborting = some e → aborting' = some e) {a : Action} (calls : Nat) (hfollows : ∀ b ∈ s.log, Follows b a)
    (hintime : a.InTime s.time) (hknown : a.event < s.created)
    (haborted : ∀ e, aborting' ≠ some e → a = .aborted e →
      (s.objects e).abortState = .STATE_ABORTED)
    (hscheduled : ∀ e, a = .abortScheduled e → (s.objects e).abortState ≠ .STATE_RUNNING)
    (hdestroyed : ∀ e, a = .destroyed e → (∀ x ∈ s.events, x.2 ≠ e) ∧
      (s.mode ≠ .killing true → ∀ x ∈ s.passed, x.2 ≠ e))
    (hexecuted : ∀ e u t i n, a = .executed e u t i n → u = s.updates ∧
      ∀ x ∈ s.events, Sooner (t, i) (s.place x)) :
    Inv { s with log := s.log ++ [a], calls := calls } aborting' where
  notCrashed := h.notCrashed
  passed := h.passed
  nodup := h.nodup
  execTime := h.execTime
  created := h.created
  inserted := h.inserted
  order := h.order
  log := by
    rw [pairwise_append]
    refine ⟨h.log, pairwise_singleton _ _, fun b hb c hc => ?_⟩
    rw [mem_singleton.mp hc]
    exact hfollows b hb
  inTime b hb := by
    cases mem_append.mp hb with
    | inl hold => exact h.inTime b hold
    | inr hnew => exact mem_singleton.mp hnew ▸ hintime
  known b hb := by
    cases mem_append.mp hb with
    | inl hold => exact h.known b hold
    | inr hnew => exact mem_singleton.mp hnew ▸ hknown
  aborted e hother he := by
    cases mem_append.mp he with
    | inl hold => exact h.aborted e (fun heq => hother (haborting e heq)) hold
    | inr hnew => exact haborted e hother (mem_singleton.mp hnew).symm
  scheduled e he := by
    cases mem_append.mp he with
    | inl hold => exact h.scheduled e hold
    | inr hnew => exact hscheduled e (mem_singleton.mp hnew).symm
  live x hx hin := by
    cases mem_append.mp hin with
    | inl hold => exact h.live x hx hold
    | inr hnew => exact (hdestroyed _ (mem_singleton.mp hnew).symm).1 x hx rfl
  livePassed hmode x hx hin := by
    cases mem_append.mp hin with
    | inl hold => exact h.livePassed hmode x hx hold
    | inr hnew => exact (hdestroyed _ (mem_singleton.mp hnew).symm).2 hmode x hx rfl
  update e u t i n hin := by
    cases mem_append.mp hin with
    | inl hold => exact h.update e u t i n hold
    | inr hnew =>
      exact Nat.le_of_eq (hexecuted e u t i n (mem_singleton.mp hnew).symm).1
  sooner hmode e t i n hin := by
    cases mem_append.mp hin with
    | inl hold => exact h.sooner hmode e t i n hold
    | inr hnew => exact (hexecuted e _ t i n (mem_singleton.mp hnew).symm).2

/-- Pairs are removed, or the iterator moves. -/
theorem Inv.requeued {passed events : List (Nat × Nat)} {mode : Mode}
    (calls : Nat) (hcrashed : mode ≠ .crashed) (hsub : (passed ++ events).Sublist s.queue)
    (hpassed : mode = .idle ∨ mode = .updating → passed = [])
    (hlive : ∀ x ∈ events, Action.destroyed x.2 ∉ s.log)
    (hlivePassed : mode ≠ .killing true → ∀ x ∈ passed, Action.destroyed x.2 ∉ s.log)
    (hupdating : mode = .updating → s.mode = .updating ∧ ∀ x ∈ events, x ∈ s.events) :
    Inv { s with passed := passed, events := events, mode := mode, calls := calls } aborting where
  notCrashed := hcrashed
  passed := hpassed
  nodup := h.nodup.sublist (hsub.map Prod.snd)
  execTime x hx := h.execTime x (hsub.mem hx)
  created x hx := h.created x (hsub.mem hx)
  inserted x hx := h.inserted x (hsub.mem hx)
  order := h.order.sublist hsub
  log := h.log
  inTime := h.inTime
  known := h.known
  aborted := h.aborted
  scheduled := h.scheduled
  live := hlive
  livePassed := hlivePassed
  update := h.update
  sooner hmode e t i n hin x hx := h.sooner (hupdating hmode).1 e t i n hin x ((hupdating hmode).2 x hx)

/-- The abort state of an event moves on. -/
theorem Inv.withState {aborting' : Option Nat} {state : AbortState}
    (haborting : ∀ e, e ≠ event → aborting' ≠ some e → aborting ≠ some e)
    (haborted : aborting' ≠ some event → Action.aborted event ∈ s.log → state = .STATE_ABORTED)
    (hstate : state ≠ .STATE_RUNNING) :
    Inv { s with
      objects := Function.update s.objects event { s.objects event with abortState := state } }
      aborting' := by
  obtain ⟨objects, hobjects⟩ : ∃ objects, Function.update s.objects event
    { s.objects event with abortState := state } = objects := ⟨_, rfl⟩
  have hsame : ∀ e, (objects e).execTime = (s.objects e).execTime ∧
      (objects e).inserted = (s.objects e).inserted := by
    intro e
    rw [← hobjects]
    by_cases he : e = event
    · rw [he, update_self]
      exact ⟨rfl, rfl⟩
    · rw [update_of_ne he]
      exact ⟨rfl, rfl⟩
  have hself : (objects event).abortState = state := by
    rw [← hobjects, update_self]
  have hother : ∀ e, e ≠ event → objects e = s.objects e := by
    intro e he
    rw [← hobjects, update_of_ne he]
  have hplace : ∀ x, place { s with objects := objects } x = s.place x := by
    intro x
    show (x.1, (objects x.2).inserted) = _
    rw [(hsame x.2).2]
    rfl
  rw [hobjects]
  constructor
  · exact h.notCrashed
  · exact h.passed
  · exact h.nodup
  · exact fun x hx => (hsame x.2).1.trans (h.execTime x hx)
  · exact h.created
  · intro x hx
    show (objects x.2).inserted < _
    rw [(hsame x.2).2]
    exact h.inserted x hx
  · apply h.order.imp
    intro x y hsooner
    rw [hplace, hplace]
    exact hsooner
  · exact h.log
  · exact h.inTime
  · exact h.known
  · intro e hne hin
    by_cases he : e = event
    · subst he
      exact hself.trans (haborted hne hin)
    · show (objects e).abortState = _
      rw [hother e he]
      exact h.aborted e (haborting e he hne) hin
  · intro e hin
    by_cases he : e = event
    · subst he
      exact fun hrunning => hstate (hself.symm.trans hrunning)
    · show (objects e).abortState ≠ _
      rw [hother e he]
      exact h.scheduled e hin
  · exact h.live
  · exact h.livePassed
  · exact h.update
  · intro hmode e t i n hin x hx
    rw [hplace]
    exact h.sooner hmode e t i n hin x hx

/-- `SetAborted`, where no `Abort` goes on or that of the event. -/
theorem Inv.setAborted (haborting : ∀ e, aborting = some e → e = event)
    (hstate : (s.objects event).abortState ≠ .STATE_ABORTED) : Inv (s.setAborted event) none := by
  rw [EventProcessor.setAborted, if_neg hstate]
  refine h.withState (fun e he _ heq => he (haborting e heq)) (fun _ _ => rfl) ?_
  exact nofun

/-- An event is destroyed that no part of the processor will look at. -/
theorem Inv.destroy (hcreated : event < s.created)
    (hlive : Action.destroyed event ∉ s.log) (hevents : ∀ x ∈ s.events, x.2 ≠ event)
    (hpassed : s.mode ≠ .killing true → ∀ x ∈ s.passed, x.2 ≠ event) :
    Inv (s.destroy event) aborting := by
  refine h.logged (fun _ heq => heq) s.calls (fun b hb => ?_) trivial hcreated
    nofun nofun
    (fun e heq => ?_) nofun
  · cases b with
    | executed e u t i n => trivial
    | abortScheduled e => exact fun _ _ _ _ => nofun
    | aborted e => exact ⟨nofun, fun _ _ _ _ => nofun⟩
    | destroyed e =>
      intro (heq : event = e)
      exact hlive (heq ▸ hb)
  · cases heq
    exact ⟨hevents, hpassed⟩

theorem Inv.destroyInHand (hhand : InHand s event) : Inv (s.destroy event) aborting :=
  h.destroy hhand.created hhand.live (fun x hx => hhand.queued x (mem_append_right _ hx))
    (fun _ x hx => hhand.queued x (mem_append_left _ hx))

end

variable (callbacks : Callbacks)

/-- `Abort` is called, and adds events. -/
theorem Inv.abort (h : Inv s none) (hcreated : event < s.created)
    (hlive : Action.destroyed event ∉ s.log) (hfirst : Action.aborted event ∉ s.log)
    (hkill : ∀ force, s.mode = .killing force → s.events ≠ [])
    (haborting : (s.objects event).abortState ≠ .STATE_ABORTED → aborting = some event) :
    Inv (s.abort callbacks event) aborting ∧
      Adds { s with calls := s.calls + 1, log := s.log ++ [Action.aborted event] }
        (s.abort callbacks event) := by
  refine Inv.addLater (h.logged (a := .aborted event) (fun _ heq => nomatch heq) (s.calls + 1)
    (fun b hb => ?_) trivial hcreated (fun e hother heq => ?_) nofun
    nofun nofun) hkill _
  · cases b with
    | executed e u t i n => trivial
    | abortScheduled e => exact fun _ _ _ _ => nofun
    | aborted e =>
      refine ⟨fun heq => ?_, fun _ _ _ _ => nofun⟩
      cases heq
      exact hfirst hb
    | destroyed e =>
      intro (heq : event = e)
      exact hlive (heq ▸ hb)
  · cases heq
    by_contra hstate
    exact hother (haborting hstate)

/-- An event has been run, and nothing that it asked for is done yet. -/
def logExecuted (s : EventProcessor) (event : Nat) : EventProcessor :=
  { s with
    calls := s.calls + 1
    log := s.log ++ [Action.executed event s.updates (s.objects event).execTime
      (s.objects event).inserted s.time] }

/-- An event that adds itself again. -/
theorem execute_again {delay : Nat} (hagain : (callbacks.execute s.calls).again = some delay)
    (hs₂ : (s.logExecuted event).addLater (callbacks.execute s.calls).added = s₂) :
    s.execute callbacks event =
      (s₂.addEvent event (s₂.time + 1 + delay) true).addLater
        (callbacks.execute s.calls).addedThen := by
  subst hs₂
  unfold execute
  simp only [hagain]
  rfl

/-- An event that ends. -/
theorem execute_done (hdone : (callbacks.execute s.calls).again = none)
    (hs₂ : (s.logExecuted event).addLater (callbacks.execute s.calls).added = s₂) :
    s.execute callbacks event =
      (s₂.addLater (callbacks.execute s.calls).addedThen).destroy event := by
  subst hs₂
  unfold execute
  simp only [hdone]
  rfl

/-- `Execute` is called, and the event is destroyed unless it is added again. -/
theorem Inv.execute (h : Inv s none) (hmode : s.mode = .updating) (hhand : InHand s event)
    (hrunning : (s.objects event).abortState = .STATE_RUNNING)
    (htime : (s.objects event).execTime ≤ s.time)
    (hbehind : ∀ x ∈ s.events, Sooner ((s.objects event).execTime, (s.objects event).inserted)
      (s.place x))
    (hbefore : ∀ e t i n, Action.executed e s.updates t i n ∈ s.log →
      Sooner (t, i) ((s.objects event).execTime, (s.objects event).inserted)) :
    Inv (s.execute callbacks event) none := by
  have hfollows : ∀ b ∈ s.log, Follows b (.executed event s.updates (s.objects event).execTime
      (s.objects event).inserted s.time) := by
    intro b hb
    cases b with
    | executed e u t i n =>
      intro heq
      cases heq
      exact hbefore e t i n hb
    | abortScheduled e =>
      intro u t i n heq
      cases heq
      exact h.scheduled event hb hrunning
    | aborted e =>
      refine ⟨nofun, fun u t i n heq => ?_⟩
      cases heq
      have haborted := h.aborted event (fun heq => nomatch heq) hb
      exact nomatch hrunning.symm.trans haborted
    | destroyed e =>
      intro (heq : event = e)
      exact hhand.live (heq ▸ hb)
  have hnone : ∀ e : Nat, none = some e → none = some e := fun _ heq => heq
  have hlogged := h.logged hnone (s.calls + 1) hfollows ⟨htime, Nat.le_refl _⟩ hhand.created
    nofun nofun
    nofun (fun e u t i n heq => by cases heq; exact ⟨rfl, hbehind⟩)
  obtain ⟨s₁, hs₁⟩ : ∃ s₁, s.logExecuted event = s₁ := ⟨_, rfl⟩
  have hmode₁ : s₁.mode = .updating := hs₁ ▸ hmode
  have hhand₁ : InHand s₁ event := hs₁ ▸ hhand.logged _ nofun
  have hinv₁ : Inv s₁ none := hs₁ ▸ hlogged
  have hnokill : ∀ {t : EventProcessor}, t.mode = .updating → ∀ force, t.mode = .killing force →
      t.events ≠ [] := fun hupdating force hkilling =>
    nomatch hupdating.symm.trans hkilling
  obtain ⟨hinv₂, hadds⟩ := hinv₁.addLater (hnokill hmode₁) (callbacks.execute s.calls).added
  have hhand₂ := hadds.inHand hhand₁
  have hmode₂ := hadds.mode.trans hmode₁
  obtain ⟨s₂, hs₂⟩ : ∃ s₂, s₁.addLater (callbacks.execute s.calls).added = s₂ := ⟨_, rfl⟩
  rw [hs₂] at hinv₂ hhand₂ hmode₂
  rw [← hs₁] at hs₂
  cases hagain : (callbacks.execute s.calls).again with
  | some delay =>
    rw [execute_again callbacks hagain hs₂]
    have haccepts : Accepts s₂ (s₂.time + 1 + delay) := ⟨fun _ => by omega, hnokill hmode₂⟩
    have hmode₃ := (mode_addEvent s₂ event (s₂.time + 1 + delay) true).trans hmode₂
    exact ((hinv₂.addEvent hhand₂ haccepts true).addLater (hnokill hmode₃)
      (callbacks.execute s.calls).addedThen).1
  | none =>
    rw [execute_done callbacks hagain hs₂]
    obtain ⟨hinv₃, hadds₃⟩ := hinv₂.addLater (hnokill hmode₂) (callbacks.execute s.calls).addedThen
    exact hinv₃.destroyInHand (hadds₃.inHand hhand₂)

/-- `Update` ends where nothing is due. -/
theorem updateRound_idle (hnone : ∀ x rest, s.events = x :: rest → ¬ x.1 ≤ s.time) :
    s.updateRound callbacks = { s with mode := .idle } := by
  unfold updateRound
  split
  · rfl
  · rename_i eTime event rest hevents
    exact if_neg (hnone (eTime, event) rest hevents)

/-- `Update` takes the first event that is due. -/
theorem updateRound_due
    (hevents : s.events = (eTime, event) :: rest) (hdue : eTime ≤ s.time)
    (hs₁ : { s with events := rest } = s₁) :
    s.updateRound callbacks =
      if (s₁.objects event).abortState = .STATE_RUNNING then s₁.execute callbacks event
      else
        let s₂ :=
          if (s₁.objects event).abortState = .STATE_ABORT_SCHEDULED then
            (s₁.abort callbacks event).setAborted event
          else s₁
        let s₃ := { s₂ with calls := s₂.calls + 1 }
        if callbacks.isDeletable s₂.calls then s₃.destroy event
        else s₃.addEvent event (s₃.time + 1) false := by
  unfold updateRound
  split
  · rename_i hnil
    exact nomatch hnil.symm.trans hevents
  · rename_i hcons
    cases hcons.symm.trans hevents
    rw [← hs₁]
    exact if_pos hdue

/-- The first event is taken out of the queue. -/
theorem Inv.taken (h : Inv s none) (hmode : s.mode = .updating)
    (hevents : s.events = (eTime, event) :: rest) :
    Inv { s with events := rest } none ∧ InHand { s with events := rest } event := by
  have hpassed : s.passed = [] := h.passed (.inr hmode)
  have hmem : (eTime, event) ∈ s.queue := by
    rw [queue, hevents]
    exact mem_append_right _ mem_cons_self
  have hsub : (s.passed ++ rest).Sublist s.queue := by
    rw [queue, hevents]
    exact (sublist_cons_self _ _).append_left _
  have hrest : ∀ x ∈ rest, x ∈ s.events := by
    rw [hevents]
    exact fun x hx => mem_cons_of_mem _ hx
  refine ⟨?_, h.created _ hmem, fun x hx heq => ?_, ?_⟩
  · exact @Inv.requeued s none h s.passed rest s.mode s.calls h.notCrashed hsub h.passed
      (fun x hx => h.live x (hrest x hx)) h.livePassed (fun _ => ⟨hmode, hrest⟩)
  · have hnodup := h.nodup
    rw [queue, hevents, hpassed, nil_append, map_cons, nodup_cons] at hnodup
    apply hnodup.1
    have hin : x ∈ s.passed ++ rest := hx
    rw [hpassed, nil_append] at hin
    exact mem_map.mpr ⟨x, hin, heq⟩
  · apply h.live (eTime, event)
    rw [hevents]
    exact mem_cons_self

theorem Inv.withCalls (h : Inv s aborting) (calls : Nat) :
    Inv { s with calls := calls } aborting :=
  ⟨h.notCrashed, h.passed, h.nodup, h.execTime, h.created, h.inserted, h.order, h.log, h.inTime,
    h.known, h.aborted, h.scheduled, h.live, h.livePassed, h.update, h.sooner⟩

/-- An event that is not executed is destroyed, or queued for the next millisecond. -/
theorem Inv.checked (h : Inv s none) (hmode : s.mode = .updating) (hhand : InHand s event)
    (calls : Nat) (deletable : Bool) :
    Inv (if deletable then { s with calls := calls }.destroy event
      else { s with calls := calls }.addEvent event (s.time + 1) false) none := by
  have hcalls := h.withCalls calls
  have hhand' : InHand { s with calls := calls } event := ⟨hhand.created, hhand.queued, hhand.live⟩
  cases deletable with
  | true => exact hcalls.destroyInHand hhand'
  | false =>
    refine hcalls.addEvent hhand' ⟨fun _ => Nat.lt_succ_self _, fun force hforce => ?_⟩ false
    exact nomatch hmode.symm.trans hforce

/-- An event whose abort was scheduled is aborted. -/
theorem Inv.abortScheduled (h : Inv s none) (hmode : s.mode = .updating) (hhand : InHand s event)
    (hstate : (s.objects event).abortState = .STATE_ABORT_SCHEDULED) :
    Inv ((s.abort callbacks event).setAborted event) none ∧
      InHand ((s.abort callbacks event).setAborted event) event ∧
      ((s.abort callbacks event).setAborted event).mode = .updating := by
  have hfirst : Action.aborted event ∉ s.log := by
    intro hin
    have haborted := h.aborted event (fun heq => nomatch heq) hin
    exact nomatch hstate.symm.trans haborted
  obtain ⟨hinv, hadds⟩ := h.abort callbacks hhand.created hhand.live hfirst
    (fun force hforce => nomatch hmode.symm.trans hforce) (fun _ => rfl)
  have hhand' := hadds.inHand (hhand.logged (s.calls + 1) nofun)
  have hnot : ((s.abort callbacks event).objects event).abortState ≠ .STATE_ABORTED := by
    rw [hadds.state event hhand.created]
    show (s.objects event).abortState ≠ _
    rw [hstate]
    exact nofun
  refine ⟨hinv.setAborted (fun e heq => (Option.some.inj heq).symm) hnot, ?_, ?_⟩
  · rw [EventProcessor.setAborted, if_neg hnot]
    exact ⟨hhand'.created, hhand'.queued, hhand'.live⟩
  · rw [EventProcessor.setAborted, if_neg hnot]
    exact hadds.mode.trans hmode

/-- A round of `Update`. -/
theorem Inv.updateRound (h : Inv s none) (hmode : s.mode = .updating) :
    Inv (s.updateRound callbacks) none := by
  by_cases hdue : ∃ x rest, s.events = x :: rest ∧ x.1 ≤ s.time
  · obtain ⟨⟨eTime, event⟩, rest, hevents, hdue⟩ := hdue
    obtain ⟨hinv₁, hhand₁⟩ := h.taken hmode hevents
    have hfront : (eTime, event) ∈ s.events := by
      rw [hevents]
      exact mem_cons_self
    have htime : (s.objects event).execTime = eTime := h.execTime _ (mem_append_right _ hfront)
    have hbehind : ∀ x ∈ rest, Sooner (s.place (eTime, event)) (s.place x) := by
      have horder := h.order
      rw [queue, hevents, pairwise_append, pairwise_cons] at horder
      exact horder.2.1.1
    rw [updateRound_due callbacks hevents hdue rfl]
    by_cases hrunning : (s.objects event).abortState = .STATE_RUNNING
    · rw [if_pos hrunning]
      refine hinv₁.execute callbacks hmode hhand₁ hrunning ?_ ?_ ?_
      · show (s.objects event).execTime ≤ s.time
        rw [htime]
        exact hdue
      · intro x hx
        show Sooner ((s.objects event).execTime, _) _
        rw [htime]
        exact hbehind x hx
      · intro e t i n hin
        show Sooner _ ((s.objects event).execTime, _)
        rw [htime]
        exact h.sooner hmode e t i n hin _ hfront
    · rw [if_neg hrunning]
      by_cases hscheduled : (s.objects event).abortState = .STATE_ABORT_SCHEDULED
      · obtain ⟨hinv₂, hhand₂, hmode₂⟩ := hinv₁.abortScheduled callbacks hmode hhand₁ hscheduled
        simp only [if_pos hscheduled]
        exact hinv₂.checked hmode₂ hhand₂ _ _
      · simp only [if_neg hscheduled]
        exact hinv₁.checked hmode hhand₁ _ _
  · have hnone : ∀ x rest, s.events = x :: rest → ¬ x.1 ≤ s.time := fun x rest hevents hle =>
      hdue ⟨x, rest, hevents, hle⟩
    rw [updateRound_idle callbacks hnone]
    exact h.requeued s.calls Mode.noConfusion (List.Sublist.refl _)
      (fun _ => h.passed (.inr hmode)) h.live
      (fun _ => h.livePassed (by rw [hmode]; exact Mode.noConfusion)) Mode.noConfusion

/-- The event under the iterator of `KillAllEvents`, once it is aborted. -/
theorem Inv.killed (h : Inv s none) {force : Bool} (hmode : s.mode = .killing force)
    (hevents : s.events = (eTime, event) :: rest)
    (hs₁ : (if (s.objects event).abortState ≠ .STATE_ABORTED then
      (s.setAborted event).abort callbacks event else s) = s₁) :
    Inv s₁ none ∧ s₁.mode = .killing force ∧ Action.destroyed event ∉ s₁.log ∧
      ∃ rest', s₁.events = (eTime, event) :: rest' := by
  have hfront : (eTime, event) ∈ s.events := by
    rw [hevents]
    exact mem_cons_self
  have hlive : Action.destroyed event ∉ s.log := h.live _ hfront
  by_cases hstate : (s.objects event).abortState = .STATE_ABORTED
  · rw [if_neg (not_not_intro hstate)] at hs₁
    subst hs₁
    exact ⟨h, hmode, hlive, rest, hevents⟩
  · rw [if_pos hstate] at hs₁
    have hinv := h.setAborted (fun e heq => nomatch heq) hstate
    have hset : s.setAborted event = { s with
        objects := Function.update s.objects event { s.objects event with
          abortState := .STATE_ABORTED } } := if_neg hstate
    rw [hset] at hinv hs₁
    have hself : (Function.update s.objects event { s.objects event with
        abortState := .STATE_ABORTED } event).abortState = .STATE_ABORTED := by
      rw [update_self]
    have hfirst : Action.aborted event ∉ s.log := fun hin =>
      hstate (h.aborted event (fun heq => nomatch heq) hin)
    obtain ⟨hinv₁, hadds⟩ := @Inv.abort _ event none callbacks hinv
      (h.created _ (mem_append_right _ hfront)) hlive hfirst
      (fun _ _ hnil => nomatch hevents.symm.trans hnil)
      (fun hne => absurd hself hne)
    rw [hs₁] at hinv₁ hadds
    refine ⟨hinv₁, hadds.mode.trans hmode, ?_, hadds.front force _ rest hmode hevents⟩
    simpa [hadds.log] using hlive

theorem killRound_nil (hevents : s.events = []) (force : Bool) :
    s.killRound callbacks force =
      if force then { s with passed := [], mode := .idle }
      else { s with passed := [], events := s.passed, mode := .idle } := by
  unfold killRound
  split
  · rfl
  · rename_i hcons
    exact nomatch hevents.symm.trans hcons

theorem killRound_cons
    (hevents : s.events = (eTime, event) :: rest) (force : Bool)
    (hs₁ : (if (s.objects event).abortState ≠ .STATE_ABORTED then
      (s.setAborted event).abort callbacks event else s) = s₁) :
    s.killRound callbacks force =
      if !force && !callbacks.isDeletable s₁.calls then
        { s₁ with
          calls := s₁.calls + 1
          passed := s₁.passed ++ s₁.events.take 1
          events := s₁.events.tail }
      else if force then
        { s₁ with
          calls := s₁.calls + 1
          passed := s₁.passed ++ s₁.events.take 1
          events := s₁.events.tail }.destroy event
      else
        { s₁ with calls := s₁.calls + 1, events := s₁.events.tail }.destroy event := by
  unfold killRound
  split
  · rename_i hnil
    exact nomatch hnil.symm.trans hevents
  · rename_i hcons
    cases hcons.symm.trans hevents
    rw [← hs₁]
    rfl

/-- A round of `KillAllEvents`. -/
theorem Inv.killRound (h : Inv s none) {force : Bool} (hmode : s.mode = .killing force) :
    Inv (s.killRound callbacks force) none := by
  cases hevents : s.events with
  | nil =>
    rw [killRound_nil callbacks hevents]
    cases force with
    | true =>
      exact @Inv.requeued s none h [] s.events .idle s.calls nofun
        (sublist_append_right _ _) (fun _ => rfl) h.live
        nofun nofun
    | false =>
      have hlive := h.livePassed (by rw [hmode]; exact fun heq => nomatch Mode.killing.inj heq)
      exact @Inv.requeued s none h [] s.passed .idle s.calls nofun
        (sublist_append_left _ _) (fun _ => rfl) hlive
        nofun nofun
  | cons x rest =>
    obtain ⟨eTime, event⟩ := x
    obtain ⟨s₁, hs₁⟩ : ∃ s₁, (if (s.objects event).abortState ≠ .STATE_ABORTED then
      (s.setAborted event).abort callbacks event else s) = s₁ := ⟨_, rfl⟩
    obtain ⟨h₁, hmode₁, hlive₁, rest', hevents₁⟩ := h.killed callbacks hmode hevents hs₁
    have hnodup := h₁.nodup
    rw [queue, hevents₁, map_append, map_cons, nodup_middle, nodup_cons, ← map_append] at hnodup
    have helse : ∀ x ∈ s₁.passed ++ rest', x.2 ≠ event := fun x hx heq =>
      hnodup.1 (mem_map.mpr ⟨x, hx, heq⟩)
    have hcreated : event < s₁.created := by
      apply h₁.created (eTime, event)
      rw [queue, hevents₁]
      exact mem_append_right _ mem_cons_self
    have hrest : ∀ x ∈ rest', Action.destroyed x.2 ∉ s₁.log := by
      intro x hx
      apply h₁.live x
      rw [hevents₁]
      exact mem_cons_of_mem _ hx
    have hmoved : (s₁.passed ++ [(eTime, event)] ++ rest').Sublist s₁.queue := by
      rw [queue, hevents₁, append_assoc, singleton_append]
    have hmode₁' : s₁.mode = .idle ∨ s₁.mode = .updating → s₁.passed ++ [(eTime, event)] = [] := by
      rw [hmode₁]
      intro hor
      cases hor with
      | inl heq => exact nomatch heq
      | inr heq => exact nomatch heq
    have hupdating : s₁.mode ≠ .updating := by
      rw [hmode₁]
      exact nofun
    rw [killRound_cons callbacks hevents force hs₁, hevents₁]
    by_cases hkept : (!force && !callbacks.isDeletable s₁.calls) = true
    · rw [if_pos hkept]
      refine @Inv.requeued s₁ none h₁ (s₁.passed ++ [(eTime, event)]) rest' s₁.mode _ h₁.notCrashed
        hmoved hmode₁' hrest (fun hnot x hx => ?_) (fun heq => absurd heq hupdating)
      cases mem_append.mp hx with
      | inl hold => exact h₁.livePassed hnot x hold
      | inr hnew => exact mem_singleton.mp hnew ▸ hlive₁
    · rw [if_neg hkept]
      cases force with
      | true =>
        have hpassed := @Inv.requeued s₁ none h₁ (s₁.passed ++ [(eTime, event)]) rest' s₁.mode
          (s₁.calls + 1) h₁.notCrashed hmoved hmode₁' hrest (fun hnot => absurd hmode₁ hnot)
          (fun heq => absurd heq hupdating)
        exact hpassed.destroy hcreated hlive₁
          (fun x hx => helse x (mem_append_right _ hx)) (fun hnot => absurd hmode₁ hnot)
      | false =>
        have herased : (s₁.passed ++ rest').Sublist s₁.queue := by
          rw [queue, hevents₁]
          exact (sublist_cons_self _ _).append_left _
        have hleft := @Inv.requeued s₁ none h₁ s₁.passed rest' s₁.mode (s₁.calls + 1)
          h₁.notCrashed herased h₁.passed hrest h₁.livePassed (fun heq => absurd heq hupdating)
        exact hleft.destroy hcreated hlive₁
          (fun x hx => helse x (mem_append_right _ hx))
          (fun _ x hx => helse x (mem_append_left _ hx))

/-! ### Every step -/

/-- `ModifyEventTime` takes the event out of the queue and adds it again. -/
theorem Inv.modifyEventTime (h : Inv s none) (hmode : s.mode = .idle) (event newTime : Nat) :
    Inv (s.modifyEventTime event newTime) none := by
  have hpassed : s.passed = [] := h.passed (.inl hmode)
  by_cases hany : s.events.any (·.2 == event) = true
  · obtain ⟨x, hx, hevent⟩ := any_eq_true.mp hany
    obtain ⟨y, l₁, l₂, hno, hy, hsplit, herase⟩ :=
      exists_of_eraseP (p := fun z : Nat × Nat => z.2 == event) hx hevent
    have hyevent : y.2 = event := beq_iff_eq.mp hy
    have hsub : ∀ z ∈ l₁ ++ l₂, z ∈ s.events := by
      rw [hsplit]
      exact fun z hz => ((sublist_cons_self y l₂).append_left l₁).mem hz
    have hyin : y ∈ s.events := by
      rw [hsplit]
      exact mem_append_right _ mem_cons_self
    have herased := @Inv.requeued s none h s.passed (l₁ ++ l₂) s.mode s.calls h.notCrashed
      (by
        rw [queue, hsplit]
        exact ((sublist_cons_self y l₂).append_left l₁).append_left _)
      h.passed (fun z hz => h.live z (hsub z hz)) h.livePassed
      (fun heq => nomatch hmode.symm.trans heq)
    have hhand : InHand { s with events := l₁ ++ l₂ } event := by
      refine ⟨?_, fun z hz heq => ?_, ?_⟩
      · rw [← hyevent]
        exact h.created y (mem_append_right _ hyin)
      · have hnodup := h.nodup
        rw [queue, hpassed, nil_append, hsplit, map_append, map_cons,
          nodup_middle, nodup_cons, ← map_append] at hnodup
        have hin : z ∈ s.passed ++ (l₁ ++ l₂) := hz
        rw [hpassed, nil_append] at hin
        exact hnodup.1 (mem_map.mpr ⟨z, hin, heq.trans hyevent.symm⟩)
      · rw [← hyevent]
        exact h.live y hyin
    rw [EventProcessor.modifyEventTime, if_pos hany, herase]
    exact herased.addEvent hhand ⟨fun heq => Mode.noConfusion (hmode.symm.trans heq),
      fun force heq => Mode.noConfusion (hmode.symm.trans heq)⟩ false
  · rw [EventProcessor.modifyEventTime, if_neg hany]
    exact h

/-- `ScheduleAbort` on an event that exists and runs. -/
theorem Inv.scheduleAbort (h : Inv s none) (hcreated : event < s.created)
    (hlive : Action.destroyed event ∉ s.log)
    (hrunning : (s.objects event).abortState = .STATE_RUNNING) :
    Inv (s.scheduleAbort event) none := by
  have hnone : ∀ e : Nat, none = some e → none = some e := fun _ heq => heq
  have hstate := @Inv.withState s event none h none .STATE_ABORT_SCHEDULED (fun _ _ hne => hne)
    (fun hne hin => nomatch hrunning.symm.trans (h.aborted event hne hin))
    nofun
  rw [EventProcessor.scheduleAbort, if_neg (not_not_intro hrunning)]
  refine hstate.logged (a := .abortScheduled event) hnone s.calls (fun b hb => ?_) trivial hcreated
    nofun (fun e heq => ?_) nofun
    nofun
  · cases b with
    | executed e u t i n => trivial
    | abortScheduled e => exact fun _ _ _ _ => nofun
    | aborted e => exact ⟨nofun, fun _ _ _ _ => nofun⟩
    | destroyed e =>
      intro (heq : event = e)
      exact hlive (heq ▸ hb)
  · cases heq
    show (Function.update s.objects event _ event).abortState ≠ _
    rw [update_self]
    exact AbortState.noConfusion

/-- `Update` begins. -/
theorem Inv.beginUpdate (h : Inv s none) (hmode : s.mode = .idle) (pTime : Nat) :
    Inv { s with time := s.time + pTime, updates := s.updates + 1, mode := .updating } none where
  notCrashed := nofun
  passed _ := h.passed (.inl hmode)
  nodup := h.nodup
  execTime := h.execTime
  created := h.created
  inserted := h.inserted
  order := h.order
  log := h.log
  inTime a ha := by
    cases a with
    | executed e u t i n =>
      have htime := h.inTime _ ha
      exact ⟨htime.1, Nat.le_trans htime.2 (Nat.le_add_right _ _)⟩
    | abortScheduled e => trivial
    | aborted e => trivial
    | destroyed e => trivial
  known := h.known
  aborted := h.aborted
  scheduled := h.scheduled
  live := h.live
  livePassed _ := h.livePassed (by rw [hmode]; exact nofun)
  update e u t i n hin := Nat.le_succ_of_le (h.update e u t i n hin)
  sooner _ e t i n hin := absurd (h.update e _ t i n hin) (Nat.not_succ_le_self _)

/-- `KillAllEvents` begins. -/
theorem Inv.beginKill (h : Inv s none) (hmode : s.mode = .idle) (force : Bool) :
    Inv { s with mode := .killing force } none := by
  refine @Inv.requeued s none h s.passed s.events (.killing force) s.calls nofun
    (List.Sublist.refl _) (fun _ => h.passed (.inl hmode)) h.live
    (fun _ => h.livePassed (by rw [hmode]; exact nofun)) nofun

/-- Every step keeps the invariant. -/
theorem Inv.step (h : Inv s none) {operation : Operation} (hfits : Fits s operation) :
    Inv (s.step callbacks operation) none := by
  unfold EventProcessor.step
  split
  · rename_i hmode
    exact (h.addNew ⟨fun heq => Mode.noConfusion (hmode.symm.trans heq),
      fun force heq => Mode.noConfusion (hmode.symm.trans heq)⟩).1
  · rename_i hmode
    exact h.modifyEventTime hmode _ _
  · rename_i hmode
    obtain ⟨hcreated, hlive, hrunning⟩ := hfits hmode
    exact h.scheduleAbort hcreated hlive hrunning
  · rename_i hmode
    exact h.beginUpdate hmode _
  · rename_i hmode
    exact h.beginKill hmode _
  · rename_i hmode
    exact h.updateRound callbacks hmode
  · rename_i hmode
    exact h.killRound callbacks hmode
  · exact h

theorem inv_empty : Inv {} none where
  notCrashed := nofun
  passed _ := rfl
  nodup := nodup_nil
  execTime := nofun
  created := nofun
  inserted := nofun
  order := .nil
  log := .nil
  inTime := nofun
  known := nofun
  aborted := nofun
  scheduled := nofun
  live := nofun
  livePassed := nofun
  update := nofun
  sooner := nofun

/-! ### The end of an update -/

/-- How many events are due. -/
def due (s : EventProcessor) : Nat := s.events.countP (·.1 ≤ s.time)

/-- From `s` to `s'` events were added for later, if any. -/
structure Keeps (s s' : EventProcessor) : Prop where
  time : s'.time = s.time
  due : s'.due = s.due
  mode : s'.mode = s.mode ∨ s'.mode = .crashed

theorem Keeps.trans (h : Keeps s s') (h' : Keeps s' s'') : Keeps s s'' where
  time := h'.time.trans h.time
  due := h'.due.trans h.due
  mode := by
    cases h'.mode with
    | inl heq =>
      rw [heq]
      exact h.mode
    | inr hcrashed => exact .inr hcrashed

theorem Keeps.notKilling (h : Keeps s s') (hmode : ∀ force, s.mode ≠ .killing force) (force : Bool) :
    s'.mode ≠ .killing force := by
  cases h.mode with
  | inl heq =>
    rw [heq]
    exact hmode force
  | inr hcrashed =>
    rw [hcrashed]
    exact nofun

theorem keeps_addEvent (hmode : ∀ force, s.mode ≠ .killing force) {eTime : Nat}
    (hlater : s.time < eTime) (event : Nat) (setAddtime : Bool) :
    Keeps s (s.addEvent event eTime setAddtime) := by
  rw [addEvent_touch]
  cases insertPair_cases (s.touch event eTime setAddtime) (eTime, event) with
  | inl hbefore =>
    obtain ⟨force, _, _, hforce, _⟩ := hbefore
    exact absurd hforce (hmode force)
  | inr hbehind =>
    rw [hbehind.2]
    refine ⟨rfl, ?_, .inl rfl⟩
    show (insertLast Prod.fst (eTime, event) s.events).countP (·.1 ≤ s.time) = _
    rw [(perm_insertLast _ _ _).countP_eq, countP_cons_of_neg (by simpa using hlater), due]

theorem keeps_addLater (hmode : ∀ force, s.mode ≠ .killing force) (delays : List Nat) :
    Keeps s (s.addLater delays) := by
  induction delays generalizing s with
  | nil => exact ⟨rfl, rfl, .inl rfl⟩
  | cons delay delays ih =>
    have hlater : s.time < s.time + 1 + delay := by omega
    have hnew := @keeps_addEvent s.create hmode _ hlater s.created true
    have hadded : Keeps s (s.addNew (s.time + 1 + delay)) := ⟨hnew.time, hnew.due, hnew.mode⟩
    exact hadded.trans (ih (hadded.notKilling hmode))

theorem keeps_setAborted (s : EventProcessor) (event : Nat) : Keeps s (s.setAborted event) := by
  rw [setAborted]
  split
  · exact ⟨rfl, rfl, .inr rfl⟩
  · exact ⟨rfl, rfl, .inl rfl⟩

theorem keeps_execute (hmode : ∀ force, s.mode ≠ .killing force) (event : Nat) :
    Keeps s (s.execute callbacks event) := by
  obtain ⟨s₁, hs₁⟩ : ∃ s₁, s.logExecuted event = s₁ := ⟨_, rfl⟩
  have hlogged : Keeps s s₁ := by
    rw [← hs₁]
    exact ⟨rfl, rfl, .inl rfl⟩
  have hadded := hlogged.trans (keeps_addLater (hlogged.notKilling hmode)
    (callbacks.execute s.calls).added)
  have hnot := hadded.notKilling hmode
  obtain ⟨s₂, hs₂⟩ : ∃ s₂, s₁.addLater (callbacks.execute s.calls).added = s₂ := ⟨_, rfl⟩
  rw [hs₂] at hadded hnot
  rw [← hs₁] at hs₂
  cases hagain : (callbacks.execute s.calls).again with
  | some delay =>
    rw [execute_again callbacks hagain hs₂]
    have hagain := keeps_addEvent hnot (show s₂.time < s₂.time + 1 + delay by omega) event true
    exact hadded.trans (hagain.trans (keeps_addLater (hagain.notKilling hnot) _))
  | none =>
    rw [execute_done callbacks hagain hs₂]
    have hthen := keeps_addLater hnot (callbacks.execute s.calls).addedThen
    exact hadded.trans ⟨hthen.time, hthen.due, hthen.mode⟩

theorem keeps_abort (hmode : ∀ force, s.mode ≠ .killing force) (event : Nat) :
    Keeps s (s.abort callbacks event) := by
  have hadded := @keeps_addLater { s with
    calls := s.calls + 1
    log := s.log ++ [Action.aborted event] } hmode (callbacks.abort s.calls)
  exact ⟨hadded.time, hadded.due, hadded.mode⟩

/-- A round that takes a due event leaves one less. -/
theorem due_updateRound (hmode : s.mode = .updating) {eTime : Nat} {rest : List (Nat × Nat)}
    (hevents : s.events = (eTime, event) :: rest) (hdue : eTime ≤ s.time) :
    (s.updateRound callbacks).due + 1 = s.due ∧
      ((s.updateRound callbacks).mode = .updating ∨ (s.updateRound callbacks).mode = .crashed) := by
  obtain ⟨s₁, hs₁⟩ : ∃ s₁, { s with events := rest } = s₁ := ⟨_, rfl⟩
  have hone : s₁.due + 1 = s.due := by
    rw [← hs₁]
    show rest.countP (·.1 ≤ s.time) + 1 = s.events.countP (·.1 ≤ s.time)
    rw [hevents, countP_cons_of_pos (by simpa using hdue)]
  have hmode₁ : s₁.mode = .updating := by
    rw [← hs₁]
    exact hmode
  have hnot : ∀ force, s₁.mode ≠ .killing force := by
    rw [hmode₁]
    exact fun _ => nofun
  have hkeeps : Keeps s₁ (s.updateRound callbacks) := by
    rw [updateRound_due callbacks hevents hdue hs₁]
    by_cases hrunning : (s₁.objects event).abortState = .STATE_RUNNING
    · rw [if_pos hrunning]
      exact keeps_execute callbacks hnot event
    · rw [if_neg hrunning]
      obtain ⟨s₂, hs₂⟩ : ∃ s₂, (if (s₁.objects event).abortState = .STATE_ABORT_SCHEDULED then
        (s₁.abort callbacks event).setAborted event else s₁) = s₂ := ⟨_, rfl⟩
      have haborted : Keeps s₁ s₂ := by
        rw [← hs₂]
        split
        · exact (keeps_abort callbacks hnot event).trans (keeps_setAborted _ event)
        · exact ⟨rfl, rfl, .inl rfl⟩
      simp only [hs₂]
      split
      · exact ⟨haborted.time, haborted.due, haborted.mode⟩
      · have hadded := @keeps_addEvent { s₂ with calls := s₂.calls + 1 }
          (haborted.notKilling hnot) (s₂.time + 1) (Nat.lt_succ_self _) event false
        exact haborted.trans ⟨hadded.time, hadded.due, hadded.mode⟩
  rw [hkeeps.due]
  refine ⟨hone, ?_⟩
  cases hkeeps.mode with
  | inl heq => exact .inl (heq.trans hmode₁)
  | inr hcrashed => exact .inr hcrashed

open StateMachine

theorem run_rounds_idle (hmode : s.mode = .idle) (rounds : Nat) :
    run (step callbacks) s (List.replicate rounds .round) = s := by
  induction rounds with
  | zero => rfl
  | succ rounds ih =>
    have hstep : s.step callbacks .round = s := by simp only [step, hmode]
    rw [replicate_succ, run_cons, hstep, ih]

/-- `Update` ends after a round for each event that was due, and one more. -/
theorem Inv.update_ends (h : Inv s none) (hmode : s.mode = .updating) :
    (run (EventProcessor.step callbacks) s (List.replicate (s.due + 1) .round)).mode = .idle := by
  induction hrounds : s.due generalizing s with
  | zero =>
    have hstep : s.step callbacks .round = s.updateRound callbacks := by
      simp only [EventProcessor.step, hmode]
    have hnone : ∀ x rest, s.events = x :: rest → ¬ x.1 ≤ s.time := by
      intro x rest hevents hle
      have hevents' : s.events = (x.1, x.2) :: rest := hevents
      have hless := (due_updateRound callbacks hmode hevents' hle).1
      omega
    show (s.step callbacks .round).mode = .idle
    rw [hstep, updateRound_idle callbacks hnone]
  | succ n ih =>
    have hstep : s.step callbacks .round = s.updateRound callbacks := by
      simp only [EventProcessor.step, hmode]
    rw [replicate_succ, run_cons, hstep]
    by_cases hdue : ∃ x rest, s.events = x :: rest ∧ x.1 ≤ s.time
    · obtain ⟨x, rest, hevents, hle⟩ := hdue
      have hevents' : s.events = (x.1, x.2) :: rest := hevents
      obtain ⟨hless, hmode'⟩ := due_updateRound callbacks hmode hevents' hle
      have hinv := h.updateRound callbacks hmode
      cases hmode' with
      | inl hupdating => exact ih hinv hupdating (by omega)
      | inr hcrashed => exact absurd hcrashed hinv.notCrashed
    · have hnone : ∀ x rest, s.events = x :: rest → ¬ x.1 ≤ s.time := fun x rest hevents hle =>
        hdue ⟨x, rest, hevents, hle⟩
      rw [updateRound_idle callbacks hnone, run_rounds_idle callbacks rfl]

/-! ### Every run -/

/-- What is true of an event processor in every state it reaches. -/
structure Lifecycle (s : EventProcessor) : Prop where
  /-- No assertion has failed. -/
  notCrashed : s.mode ≠ .crashed
  /-- Nothing happens to a destroyed event, no event is executed after its abort was scheduled
  or done, and the events of an update are executed in the order of (time, insertion). -/
  follows : s.log.Pairwise Follows
  inTime : ∀ e u t i n, Action.executed e u t i n ∈ s.log → t ≤ n
  destroyedOnce : ∀ e, s.log.count (.destroyed e) ≤ 1
  abortedOnce : ∀ e, s.log.count (.aborted e) ≤ 1
  /-- The queue holds no destroyed event, or a forced kill goes on that has passed it. -/
  queued : ∀ x ∈ s.events, Action.destroyed x.2 ∉ s.log
  passed : s.mode ≠ .killing true → ∀ x ∈ s.queue, Action.destroyed x.2 ∉ s.log

/-- What does not follow itself happens once. -/
theorem count_le_one {l : List Action} (h : l.Pairwise Follows) {a : Action}
    (hself : ¬ Follows a a) : l.count a ≤ 1 := by
  induction l with
  | nil => exact Nat.zero_le 1
  | cons b l ih =>
    obtain ⟨hb, hl⟩ := pairwise_cons.mp h
    by_cases heq : b = a
    · have hnot : a ∉ l := fun hin => hself (heq ▸ hb a hin)
      rw [heq, count_cons_self, count_eq_zero.mpr hnot]
    · rw [count_cons_of_ne heq]
      exact ih hl

theorem Inv.lifecycle (h : Inv s aborting) : Lifecycle s where
  notCrashed := h.notCrashed
  follows := h.log
  inTime e u t i n hin := (h.inTime _ hin).1
  destroyedOnce e := count_le_one h.log fun hself => hself rfl
  abortedOnce e := count_le_one h.log fun hself => hself.1 rfl
  queued := h.live
  passed hmode x hx := by
    cases mem_append.mp hx with
    | inl hpassed => exact h.livePassed hmode x hpassed
    | inr hevents => exact h.live x hevents

/-- In every state a run reaches the life of the events is as described, and an update that goes
on there ends. -/
theorem run_lifecycle (operations : List Operation)
    (hfits : Admits (EventProcessor.step callbacks) Fits {} operations) :
    Lifecycle (run (EventProcessor.step callbacks) {} operations) ∧
      ((run (EventProcessor.step callbacks) {} operations).mode = .updating →
        ∃ rounds, (run (EventProcessor.step callbacks) {}
          (operations ++ List.replicate rounds .round)).mode = .idle) := by
  have hinv : Inv (run (EventProcessor.step callbacks) {} operations) none :=
    @run_invariant_of_admits _ _ _ _ _ (fun t => Inv t none) inv_empty
      (fun _ _ h hok => h.step callbacks hok) operations hfits
  refine ⟨hinv.lifecycle, fun hmode => ?_⟩
  exact ⟨_, (congrArg EventProcessor.mode (run_append _ _)).trans
    (hinv.update_ends callbacks hmode)⟩

/-- An event that adds another one, a second one whose abort is scheduled, and an update. -/
theorem run_lifecycle_update :
    Lifecycle (run (EventProcessor.step ⟨fun _ => ⟨[3], none, []⟩, fun _ => [], fun _ => true⟩) {}
        [.addEvent 5, .addEvent 7, .scheduleAbort 1, .update 6]) ∧
      ((run (EventProcessor.step ⟨fun _ => ⟨[3], none, []⟩, fun _ => [], fun _ => true⟩) {}
        [.addEvent 5, .addEvent 7, .scheduleAbort 1, .update 6]).mode = .updating →
        ∃ rounds, (run (EventProcessor.step ⟨fun _ => ⟨[3], none, []⟩, fun _ => [], fun _ => true⟩) {}
          ([.addEvent 5, .addEvent 7, .scheduleAbort 1, .update 6] ++
            List.replicate rounds .round)).mode = .idle) :=
  run_lifecycle _ _ (by
    refine ⟨trivial, trivial, fun _ => ⟨?_, ?_, ?_⟩, trivial, trivial⟩ <;> decide)

/-- A forced kill destroys an event and leaves it in the queue until it has passed the others. -/
theorem destroyed_while_queued :
    (run (EventProcessor.step ⟨fun _ => ⟨[], none, []⟩, fun _ => [], fun _ => true⟩) {}
      [.addEvent 5, .addEvent 7, .killAllEvents true, .round]).queue = [(5, 0), (7, 1)] ∧
    Action.destroyed 0 ∈
      (run (EventProcessor.step ⟨fun _ => ⟨[], none, []⟩, fun _ => [], fun _ => true⟩) {}
        [.addEvent 5, .addEvent 7, .killAllEvents true, .round]).log := by
  decide

end EventProcessor

end TrinityCore.Utilities
