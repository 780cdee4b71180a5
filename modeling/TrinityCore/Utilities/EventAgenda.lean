import Mathlib.Data.Finset.Basic
import TrinityCore.Lib.StateMachine
import TrinityCore.Utilities.EventMap

/-!
# The event map as an agenda

What the event map is for: an agenda of events, each with an id, a group, a phase, a time and
the place of its insertion. The event map refines it, call by call, and a series of
`ExecuteEvent` works off what is due.
-/

namespace TrinityCore.Utilities

open EventMap List

/-! ### Packed events -/

/-- The bit of a group or phase, where there is one. -/
theorem testBit_or_bit (n k bit i : Nat) (has : Prop) [Decidable has] :
    (if has then n ||| 1 <<< (k + bit) else n).testBit i =
      (n.testBit i || (decide has && decide (i = k + bit))) := by
  by_cases h : has
  · rw [if_pos h, Nat.testBit_or, Nat.one_shiftLeft, Nat.testBit_two_pow]
    simp [h, eq_comm]
  · rw [if_neg h]
    simp [h]

theorem testBit_packEvent (eventId group phase i : Nat) :
    (packEvent eventId group phase).testBit i =
      (eventId.testBit i || (decide (group ≠ 0 ∧ group ≤ 8) && decide (i = group + 15)) ||
        (decide (phase ≠ 0 ∧ phase ≤ 8) && decide (i = phase + 23))) := by
  rw [packEvent, testBit_or_bit, testBit_or_bit]

variable {eventId i group phase mask time delay p : Nat} {x y e : PlannedEvent}

/-- An id fits below the bits of the groups. -/
theorem testBit_id (hid : eventId < 65536) (hi : 16 ≤ i) : eventId.testBit i = false := by
  apply Nat.testBit_lt_two_pow
  calc eventId < 2 ^ 16 := hid
    _ ≤ 2 ^ i := Nat.pow_le_pow_right (by omega) hi

/-- The id is read back. -/
theorem packEvent_id (hid : eventId < 65536) :
    packEvent eventId group phase &&& 0xFFFF = eventId := by
  apply Nat.eq_of_testBit_eq
  intro i
  have hmask : (0xFFFF : Nat) = 2 ^ 16 - 1 := rfl
  rw [hmask, Nat.testBit_and, Nat.testBit_two_pow_sub_one, testBit_packEvent]
  by_cases hi : i < 16
  · simp [hi, show ¬ i = phase + 23 by omega]
    omega
  · simp [hi, testBit_id hid (Nat.le_of_not_lt hi)]

/-- Two words share a bit, or their conjunction is zero. -/
theorem and_ne_zero_iff (n m : Nat) : n &&& m ≠ 0 ↔ ∃ i, n.testBit i ∧ m.testBit i := by
  constructor
  · intro h
    obtain ⟨i, hi⟩ := Nat.exists_testBit_of_ne_zero h
    rw [Nat.testBit_and] at hi
    exact ⟨i, by simpa using hi⟩
  · intro ⟨i, hn, hm⟩ hzero
    have hi := congrArg (fun w => w.testBit i) hzero
    simp [hn, hm] at hi

theorem and_bit_ne_zero (n k : Nat) : n &&& 1 <<< k ≠ 0 ↔ n.testBit k = true := by
  rw [and_ne_zero_iff]
  simp [Nat.one_shiftLeft, Nat.testBit_two_pow]

/-- The group is read back. -/
theorem packEvent_group {g : Nat} (hid : eventId < 65536) (hphase : phase ≤ 8) (hgroup : group ≤ 8)
    (hg : g ≠ 0) (hg8 : g ≤ 8) :
    packEvent eventId group phase &&& 1 <<< (g + 15) ≠ 0 ↔ group = g := by
  rw [and_bit_ne_zero, testBit_packEvent, testBit_id hid (by omega)]
  simp
  omega

/-- The phase is read back. -/
theorem testBit_packEvent_phase (hid : eventId < 65536) (hgroup : group ≤ 8) (hphase : phase ≤ 8) :
    (packEvent eventId group phase).testBit (i + 24) = decide (phase = i + 1) := by
  rw [testBit_packEvent, testBit_id hid (by omega)]
  by_cases h : phase = i + 1
  · simp [h]
    omega
  · simp [h]
    omega

/-- A word has phases where the event has one. -/
theorem packEvent_phase (hid : eventId < 65536) (hgroup : group ≤ 8) (hphase : phase ≤ 8) :
    packEvent eventId group phase &&& 0xFF000000 ≠ 0 ↔ phase ≠ 0 := by
  have hmask : (0xFF000000 : Nat) = (2 ^ 8 - 1) <<< 24 := rfl
  rw [and_ne_zero_iff]
  constructor
  · intro ⟨i, hword, hbit⟩ hzero
    rw [hmask, Nat.testBit_shiftLeft] at hbit
    have hi : 24 ≤ i := by
      by_cases hi : 24 ≤ i
      · exact hi
      · simp [hi] at hbit
    have hread : (packEvent eventId group phase).testBit (i - 24 + 24) =
        decide (phase = i - 24 + 1) := testBit_packEvent_phase hid hgroup hphase
    rw [Nat.sub_add_cancel hi, hword] at hread
    simp [hzero] at hread
  · intro hne
    refine ⟨phase - 1 + 24, ?_, ?_⟩
    · rw [testBit_packEvent_phase hid hgroup hphase]
      simp
      omega
    · rw [hmask, Nat.testBit_shiftLeft, Nat.add_sub_cancel, Nat.testBit_two_pow_sub_one]
      simp
      omega

/-- The word shares a phase with a mask where the mask has the phase of the event. -/
theorem packEvent_mask (hid : eventId < 65536) (hgroup : group ≤ 8) (hphase : phase ≤ 8) :
    packEvent eventId group phase >>> 24 &&& mask ≠ 0 ↔
      phase ≠ 0 ∧ mask.testBit (phase - 1) = true := by
  rw [and_ne_zero_iff]
  constructor
  · intro ⟨i, hword, hbit⟩
    rw [Nat.testBit_shiftRight, Nat.add_comm, testBit_packEvent_phase hid hgroup hphase] at hword
    have heq : phase = i + 1 := of_decide_eq_true hword
    rw [heq, Nat.add_sub_cancel]
    exact ⟨Nat.succ_ne_zero i, hbit⟩
  · intro ⟨hne, hbit⟩
    refine ⟨phase - 1, ?_, hbit⟩
    rw [Nat.testBit_shiftRight, Nat.add_comm, testBit_packEvent_phase hid hgroup hphase]
    simp
    omega

/-! ### The agenda -/

/-- A planned event: when it is due, how many insertions came before its own, and what it is. -/
structure PlannedEvent where
  time : Nat
  inserted : Nat
  id : Nat
  /-- 1 to 8, or 0 for none. -/
  group : Nat
  phase : Nat
  deriving DecidableEq, Repr

namespace PlannedEvent

/-- The order of (time, insertion). -/
def Before (x y : PlannedEvent) : Prop :=
  x.time < y.time ∨ x.time = y.time ∧ x.inserted < y.inserted

instance : DecidableRel Before := fun x y =>
  inferInstanceAs (Decidable (x.time < y.time ∨ x.time = y.time ∧ x.inserted < y.inserted))

/-- Its id, group and phase are in range. -/
structure Ok (e : PlannedEvent) : Prop where
  id_pos : 0 < e.id
  id_lt : e.id < 65536
  group : e.group ≤ 8
  phase : e.phase ≤ 8

/-- The event planned another time. -/
def again (e : PlannedEvent) (time inserted : Nat) : PlannedEvent :=
  { e with time := time, inserted := inserted }

end PlannedEvent

/-- The agenda of a script. -/
structure Agenda where
  timer : Nat := 0
  /-- The active phases. -/
  phases : Finset Nat := ∅
  planned : List PlannedEvent := []
  insertions : Nat := 0
  /-- The event executed last. -/
  last : Option PlannedEvent := none

namespace Agenda

/-- The event is due. -/
def Due (a : Agenda) (e : PlannedEvent) : Prop := e.time ≤ a.timer

instance (a : Agenda) : DecidablePred a.Due := fun e => inferInstanceAs (Decidable (e.time ≤ a.timer))

/-- The event has no phase, shares one with the active phases, or finds none active. -/
def InPhase (a : Agenda) (e : PlannedEvent) : Prop :=
  e.phase = 0 ∨ e.phase ∈ a.phases ∨ a.phases = ∅

instance (a : Agenda) : DecidablePred a.InPhase := fun e =>
  inferInstanceAs (Decidable (e.phase = 0 ∨ e.phase ∈ a.phases ∨ a.phases = ∅))

/-- Plan one more event. -/
def plan (a : Agenda) (e : PlannedEvent) : Agenda :=
  { a with
    planned := e :: a.planned
    insertions := a.insertions + 1 }

/-- Keep the events that satisfy `p`. -/
def keep (a : Agenda) (p : PlannedEvent → Prop) [DecidablePred p] : Agenda :=
  { a with planned := a.planned.filter (p ·) }

/-- The first event to execute: due, in phase, and before all others that are. -/
def first (a : Agenda) : Option PlannedEvent :=
  a.planned.find? fun e => a.Due e ∧ a.InPhase e ∧
    ∀ x ∈ a.planned, a.Due x → a.InPhase x → x = e ∨ e.Before x

/-- Execute the first event. The events out of phase before it are dropped, all those that are
due where there is none to execute. -/
def execute (a : Agenda) : Nat × Agenda :=
  match a.first with
  | some e =>
    (e.id, { a.keep fun x => x ≠ e ∧ (a.InPhase x ∨ ¬ x.Before e) with last := some e })
  | none => (0, a.keep fun x => ¬ a.Due x)

/-- Put off the events of a group; they count as inserted again. -/
def delayGroup (a : Agenda) (delay group : Nat) : Agenda :=
  if group = 0 then a
  else { a with
    planned := a.planned.map fun e =>
      if e.group = group then e.again (e.time + delay) (a.insertions + e.inserted) else e
    insertions := a.insertions + a.insertions }

/-- One call, beside the ids of the executed events. -/
def step (s : Agenda × List Nat) : EventMap.Call → Agenda × List Nat
  | .reset => ({ s.1 with planned := [], timer := 0, phases := ∅ }, s.2)
  | .update time => ({ s.1 with timer := s.1.timer + time }, s.2)
  | .setPhase phase => ({ s.1 with phases := if phase = 0 then ∅ else {phase} }, s.2)
  | .addPhase phase =>
    ({ s.1 with phases := if phase = 0 then s.1.phases else insert phase s.1.phases }, s.2)
  | .removePhase phase => ({ s.1 with phases := s.1.phases.erase phase }, s.2)
  | .scheduleEvent id time group phase =>
    (s.1.plan ⟨s.1.timer + time, s.1.insertions, id, group, phase⟩, s.2)
  | .rescheduleEvent id time group phase =>
    ((s.1.keep (·.id ≠ id)).plan ⟨s.1.timer + time, s.1.insertions, id, group, phase⟩, s.2)
  | .repeatEvent time =>
    match s.1.last with
    | some e => (s.1.plan (e.again (s.1.timer + time) s.1.insertions), s.2)
    | none => s
  | .executeEvent => (s.1.execute.2, s.2 ++ [s.1.execute.1])
  | .delayEvents delay => ({ s.1 with timer := s.1.timer - delay }, s.2)
  | .delayEventsGroup delay group => (s.1.delayGroup delay group, s.2)
  | .cancelEvent id => (s.1.keep (·.id ≠ id), s.2)
  | .cancelEventGroup group =>
    (if group = 0 then s.1 else s.1.keep (·.group ≠ group), s.2)

/-- A call whose ids, groups and phases are in range, and whose times stay below 2^32. An event
is repeated only after one was executed. -/
def Fits (s : Agenda × List Nat) : EventMap.Call → Prop
  | .reset => True
  | .update time => s.1.timer + time < 4294967296
  | .setPhase phase => phase ≤ 8
  | .addPhase phase => phase ≤ 8
  | .removePhase phase => phase ≤ 8
  | .scheduleEvent id time group phase =>
    0 < id ∧ id < 65536 ∧ group ≤ 8 ∧ phase ≤ 8 ∧ s.1.timer + time < 4294967296
  | .rescheduleEvent id time group phase =>
    0 < id ∧ id < 65536 ∧ group ≤ 8 ∧ phase ≤ 8 ∧ s.1.timer + time < 4294967296
  | .repeatEvent time => s.1.last.isSome ∧ s.1.timer + time < 4294967296
  | .executeEvent => True
  | .delayEvents _ => True
  | .delayEventsGroup delay group =>
    group ≤ 8 ∧ (group ≠ 0 → ∀ e ∈ s.1.planned, e.group = group → e.time + delay < 4294967296)
  | .cancelEvent _ => True
  | .cancelEventGroup group => group ≤ 8

end Agenda

/-! ### The refinement -/

/-- The pair the event map holds for a planned event. -/
def stored (e : PlannedEvent) : Nat × Nat := (e.time, packEvent e.id e.group e.phase)

/-- The event map holds the planned events in the order of (time, insertion). -/
structure Refines (m : EventMap) (a : Agenda) (sorted : List PlannedEvent) : Prop where
  perm : sorted.Perm a.planned
  order : sorted.Pairwise PlannedEvent.Before
  items : m.eventMap.items = sorted.map stored
  time : m.time = a.timer
  phase : ∀ i, m.phase.testBit i = decide (i + 1 ∈ a.phases)
  phases : ∀ p ∈ a.phases, 0 < p ∧ p ≤ 8
  last : ∀ e, a.last = some e → m.lastEvent = packEvent e.id e.group e.phase
  ok : ∀ e ∈ a.planned, e.Ok
  lastOk : ∀ e, a.last = some e → e.Ok
  inserted : ∀ e ∈ a.planned, e.inserted < a.insertions

variable {m : EventMap} {a : Agenda} {sorted : List PlannedEvent}

namespace PlannedEvent

theorem Before.asymm (h : x.Before y) : ¬ y.Before x := by
  intro h'
  cases h with
  | inl hlt => cases h' with
    | inl hlt' => omega
    | inr heq => omega
  | inr heq => cases h' with
    | inl hlt' => omega
    | inr heq' => omega

theorem Before.time_le (h : x.Before y) : x.time ≤ y.time := by
  cases h with
  | inl hlt => exact Nat.le_of_lt hlt
  | inr heq => exact Nat.le_of_eq heq.1

end PlannedEvent

namespace Refines

section

variable (h : Refines m a sorted)
include h

theorem mem : e ∈ sorted ↔ e ∈ a.planned := h.perm.mem_iff

/-- One more event. -/
theorem plan (hok : e.Ok) (hinserted : e.inserted = a.insertions) :
    Refines { m with eventMap := m.eventMap.insert (stored e) } (a.plan e)
      (insertLast PlannedEvent.time e sorted) where
  perm := (perm_insertLast _ e sorted).trans (h.perm.cons e)
  order := by
    refine pairwise_insertLast (r := PlannedEvent.Before) (fun _ _ hbefore => hbefore.time_le)
      (fun y hy hle => ?_) (fun _ _ hlt => .inl hlt) h.order
    have hlt := h.inserted y (h.mem.mp hy)
    rw [← hinserted] at hlt
    cases Nat.lt_or_eq_of_le hle with
    | inl hless => exact .inl hless
    | inr heq => exact .inr ⟨heq, hlt⟩
  items := by
    rw [MultiMap.items_insert, h.items]
    exact (map_insertLast (fun _ => rfl) sorted).symm
  time := h.time
  phase := h.phase
  phases := h.phases
  last := h.last
  ok x hx := by
    cases mem_cons.mp hx with
    | inl heq => exact heq ▸ hok
    | inr hmem => exact h.ok x hmem
  lastOk := h.lastOk
  inserted x hx := by
    cases mem_cons.mp hx with
    | inl heq =>
      rw [heq, hinserted]
      exact Nat.lt_succ_self _
    | inr hmem => exact Nat.lt_succ_of_lt (h.inserted x hmem)

/-- A part of the events. -/
theorem keep {p : PlannedEvent → Prop} [DecidablePred p]
    {q : Nat × Nat → Bool} (hq : ∀ e ∈ a.planned, q (stored e) = decide (p e)) :
    Refines { m with eventMap := m.eventMap.filter q } (a.keep p) (sorted.filter (p ·)) where
  perm := h.perm.filter _
  order := h.order.filter _
  items := by
    rw [MultiMap.items_filter, h.items, filter_map]
    apply congrArg (map stored)
    apply filter_congr
    intro e he
    exact hq e (h.mem.mp he)
  time := h.time
  phase := h.phase
  phases := h.phases
  last := h.last
  ok e he := h.ok e (mem_of_mem_filter he)
  lastOk := h.lastOk
  inserted e he := h.inserted e (mem_of_mem_filter he)

/-- The event map drops a due event just where the agenda has it out of phase. -/
theorem outOfPhase_iff (hok : e.Ok) :
    m.outOfPhase (packEvent e.id e.group e.phase) = true ↔ ¬ a.InPhase e := by
  have hmask : m.phase = 0 ↔ a.phases = ∅ := by
    constructor
    · intro hzero
      apply Finset.eq_empty_of_forall_notMem
      intro p hp
      have hbit := h.phase (p - 1)
      rw [hzero, Nat.zero_testBit, Nat.sub_add_cancel (h.phases p hp).1] at hbit
      simp [hp] at hbit
    · intro hempty
      by_contra hne
      obtain ⟨i, hi⟩ := Nat.exists_testBit_of_ne_zero hne
      rw [h.phase i, hempty] at hi
      exact nomatch hi
  have hword := packEvent_phase hok.id_lt hok.group hok.phase
  have hshare := @packEvent_mask _ _ _ m.phase hok.id_lt hok.group hok.phase
  have hbit : e.phase ≠ 0 → (m.phase.testBit (e.phase - 1) = true ↔ e.phase ∈ a.phases) := by
    intro hne
    rw [h.phase, Nat.sub_add_cancel (Nat.pos_of_ne_zero hne), decide_eq_true_iff]
  simp only [outOfPhase, Bool.and_eq_true, decide_eq_true_eq, Agenda.InPhase]
  rw [← not_ne_iff (a := packEvent e.id e.group e.phase >>> 24 &&& m.phase), hshare, hword,
    ne_eq, hmask]
  tauto

end

end Refines

/-! ### Execution -/

namespace EventMap

/-- The fields `ExecuteEvent` does not write. -/
def SameClock (m m' : EventMap) : Prop := m'.time = m.time ∧ m'.phase = m.phase

theorem executeEvent_nil (hitems : m.eventMap.items = []) : m.executeEvent = (0, m) := by
  rw [executeEvent]
  split
  · rfl
  · rename_i hcons
    cases hitems.symm.trans hcons

theorem executeEvent_cons {event : Nat} {rest : List (Nat × Nat)}
    (hitems : m.eventMap.items = (time, event) :: rest) :
    m.executeEvent =
      if time > m.time then (0, m)
      else if m.outOfPhase event then
        { m with eventMap := m.eventMap.eraseBegin }.executeEvent
      else (event &&& 0xFFFF, { m with
        lastEvent := event, eventMap := m.eventMap.eraseBegin }) := by
  rw [executeEvent]
  split
  · rename_i hnil
    cases hitems.symm.trans hnil
  · rename_i hcons
    cases hitems.symm.trans hcons
    rfl

end EventMap

/-- What `ExecuteEvent` does to the events in their order: it takes the first that is due and in
phase, or none, and drops those before it. -/
theorem executeEvent_cases {m : EventMap} (hitems : m.eventMap.items = sorted.map stored)
    (horder : sorted.Pairwise PlannedEvent.Before) (htime : m.time = a.timer)
    (hok : ∀ e ∈ sorted, e.Ok)
    (hphase : ∀ e ∈ sorted, m.outOfPhase (packEvent e.id e.group e.phase) = true ↔ ¬ a.InPhase e) :
    (∃ m', m.executeEvent = (0, m') ∧ m.SameClock m' ∧ m'.lastEvent = m.lastEvent ∧
      m'.eventMap.items = (sorted.filter (¬ a.Due ·)).map stored ∧
      ∀ e ∈ sorted, a.Due e → ¬ a.InPhase e) ∨
    ∃ e dropped later m', m.executeEvent = (e.id, m') ∧ m.SameClock m' ∧
      m'.lastEvent = packEvent e.id e.group e.phase ∧ m'.eventMap.items = later.map stored ∧
      sorted = dropped ++ e :: later ∧ a.Due e ∧ a.InPhase e ∧
      ∀ x ∈ dropped, a.Due x ∧ ¬ a.InPhase x := by
  induction sorted generalizing m with
  | nil =>
    exact .inl ⟨m, executeEvent_nil hitems, ⟨rfl, rfl⟩, rfl, hitems,
      fun _ he => nomatch he⟩
  | cons e rest ih =>
    obtain ⟨hfirst, hrest⟩ := pairwise_cons.mp horder
    have hstep := executeEvent_cons hitems
    have htail : ({ m with eventMap := m.eventMap.eraseBegin } : EventMap).eventMap.items =
        rest.map stored := by
      rw [MultiMap.items_eraseBegin, hitems]
      rfl
    by_cases hdue : a.Due e
    · have hnow : ¬ e.time > m.time := by
        rw [htime]
        exact Nat.not_lt_of_le hdue
      rw [if_neg hnow] at hstep
      by_cases hin : a.InPhase e
      · -- this one is executed
        have hno : ¬ m.outOfPhase (packEvent e.id e.group e.phase) = true := fun hout =>
          (hphase e mem_cons_self).mp hout hin
        rw [if_neg hno, packEvent_id (hok e mem_cons_self).id_lt] at hstep
        exact .inr ⟨e, [], rest, _, hstep, ⟨rfl, rfl⟩, rfl, htail, rfl, hdue, hin,
          fun _ hx => nomatch hx⟩
      · -- this one is dropped
        rw [if_pos ((hphase e mem_cons_self).mpr hin)] at hstep
        rw [hstep]
        cases ih htail hrest htime (fun x hx => hok x (mem_cons_of_mem _ hx))
          (fun x hx => hphase x (mem_cons_of_mem _ hx)) with
        | inl hnone =>
          obtain ⟨m', hexecute, hclock, hlast, hitems', hall⟩ := hnone
          refine .inl ⟨m', hexecute, hclock, hlast, ?_, fun x hx => ?_⟩
          · rw [filter_cons_of_neg (by simpa using hdue)]
            exact hitems'
          · cases mem_cons.mp hx with
            | inl heq => exact fun _ => heq ▸ hin
            | inr hmem => exact hall x hmem
        | inr hsome =>
          obtain ⟨x, dropped, later, m', hexecute, hclock, hlast, hitems', hsplit, hduex, hinx,
            hdrop⟩ := hsome
          refine .inr ⟨x, e :: dropped, later, m', hexecute, hclock, hlast, hitems', ?_, hduex,
            hinx, fun y hy => ?_⟩
          · rw [hsplit, cons_append]
          · cases mem_cons.mp hy with
            | inl heq => exact heq ▸ ⟨hdue, hin⟩
            | inr hmem => exact hdrop y hmem
    · have hlater : e.time > m.time := by
        rw [htime]
        exact Nat.lt_of_not_le hdue
      have hnone : ∀ x ∈ e :: rest, ¬ a.Due x := by
        intro x hx hduex
        cases mem_cons.mp hx with
        | inl heq => exact hdue (heq ▸ hduex)
        | inr hmem => exact hdue (Nat.le_trans (hfirst x hmem).time_le hduex)
      rw [if_pos hlater] at hstep
      refine .inl ⟨m, hstep, ⟨rfl, rfl⟩, rfl, ?_, fun x hx hduex => absurd hduex (hnone x hx)⟩
      rw [filter_eq_self.mpr (fun x hx => by simpa using hnone x hx)]
      exact hitems

/-- The first event of an agenda, from its events in their order. -/
theorem Agenda.first_eq {dropped later : List PlannedEvent} (hperm : sorted.Perm a.planned)
    (horder : sorted.Pairwise PlannedEvent.Before) (hsplit : sorted = dropped ++ e :: later)
    (hdue : a.Due e) (hin : a.InPhase e) (hdrop : ∀ x ∈ dropped, a.Due x ∧ ¬ a.InPhase x) :
    a.first = some e := by
  have hlater : ∀ x ∈ later, e.Before x := by
    rw [hsplit, pairwise_append, pairwise_cons] at horder
    exact horder.2.1.1
  have hfirst : ∀ x ∈ a.planned, a.Due x → a.InPhase x → x = e ∨ e.Before x := by
    intro x hx _ hinx
    have hmem := hperm.mem_iff.mpr hx
    rw [hsplit, mem_append, mem_cons] at hmem
    cases hmem with
    | inl hdropped => exact absurd hinx (hdrop x hdropped).2
    | inr hrest => cases hrest with
      | inl heq => exact .inl heq
      | inr hmem => exact .inr (hlater x hmem)
  have he : e ∈ a.planned := by
    apply hperm.mem_iff.mp
    rw [hsplit]
    exact mem_append_right _ mem_cons_self
  cases hfound : a.first with
  | none =>
    have hnone := find?_eq_none.mp hfound e he
    exact absurd (decide_eq_true ⟨hdue, hin, hfirst⟩) hnone
  | some x =>
    have hx : x ∈ a.planned := mem_of_find?_eq_some hfound
    have hsome := find?_some hfound
    obtain ⟨hduex, hinx, hall⟩ := of_decide_eq_true hsome
    cases hfirst x hx hduex hinx with
    | inl heq => rw [heq]
    | inr hbefore => cases hall e he hdue hin with
      | inl heq => rw [heq]
      | inr hbefore' => exact absurd hbefore' hbefore.asymm

theorem Agenda.first_eq_none (h : ∀ e ∈ a.planned, a.Due e → ¬ a.InPhase e) : a.first = none := by
  apply find?_eq_none.mpr
  intro e he hfirst
  obtain ⟨hdue, hin, -⟩ := of_decide_eq_true hfirst
  exact h e he hdue hin

namespace Refines

/-- `ExecuteEvent` executes the first event of the agenda. -/
theorem execute (h : Refines m a sorted) :
    m.executeEvent.1 = a.execute.1 ∧ ∃ sorted', Refines m.executeEvent.2 a.execute.2 sorted' := by
  have hcases := executeEvent_cases h.items h.order h.time (fun e he => h.ok e (h.mem.mp he))
    (fun e he => h.outOfPhase_iff (h.ok e (h.mem.mp he)))
  cases hcases with
  | inl hnone =>
    obtain ⟨m', hexecute, hclock, hlast, hitems, hall⟩ := hnone
    have hfirst := Agenda.first_eq_none fun e he => hall e (h.mem.mpr he)
    rw [hexecute, Agenda.execute, hfirst]
    refine ⟨rfl, sorted.filter (¬ a.Due ·), h.perm.filter _, h.order.filter _, hitems,
      hclock.1.trans h.time, fun i => ?_, h.phases, fun e he => hlast.trans (h.last e he),
      fun e he => h.ok e (mem_of_mem_filter he), h.lastOk,
      fun e he => h.inserted e (mem_of_mem_filter he)⟩
    rw [hclock.2]
    exact h.phase i
  | inr hsome =>
    obtain ⟨e, dropped, later, m', hexecute, hclock, hlast, hitems, hsplit, hdue, hin, hdrop⟩ :=
      hsome
    have hfirst := Agenda.first_eq h.perm h.order hsplit hdue hin hdrop
    have hlater : sorted.filter (fun x => x ≠ e ∧ (a.InPhase x ∨ ¬ x.Before e)) = later := by
      have horder := h.order
      rw [hsplit, pairwise_append, pairwise_cons] at horder
      obtain ⟨-, ⟨hbehind, -⟩, hbefore⟩ := horder
      rw [hsplit, filter_append, filter_cons_of_neg (by simp),
        filter_eq_nil_iff.mpr, nil_append, filter_eq_self.mpr]
      · intro x hx
        have hnot := (hbehind x hx).asymm
        have hne : x ≠ e := by
          intro heq
          exact hnot (heq ▸ hbehind x hx)
        simp [hne, hnot]
      · intro x hx
        have hout := (hdrop x hx).2
        have hfront := hbefore x hx e mem_cons_self
        simp [hout, hfront]
    have hold : e ∈ a.planned := by
      apply h.mem.mp
      rw [hsplit]
      exact mem_append_right _ mem_cons_self
    rw [hexecute, Agenda.execute, hfirst]
    refine ⟨rfl, later, ?_, ?_, hitems, hclock.1.trans h.time, fun i => ?_, h.phases, ?_,
      fun x hx => h.ok x (mem_of_mem_filter hx), ?_,
      fun x hx => h.inserted x (mem_of_mem_filter hx)⟩
    · rw [← hlater]
      exact h.perm.filter _
    · rw [← hlater]
      exact h.order.filter _
    · rw [hclock.2]
      exact h.phase i
    · intro x hx
      cases hx
      exact hlast
    · intro x hx
      cases hx
      exact h.ok e hold

/-- The bit of a group tells the events of the group. -/
theorem inGroup_eq (h : Refines m a sorted) (hne : group ≠ 0) (hgroup : group ≤ 8)
    (he : e ∈ a.planned) :
    decide ((stored e).2 &&& 1 <<< (group + 15) ≠ 0) = decide (e.group = group) :=
  have hok := h.ok e he
  decide_eq_decide.mpr (packEvent_group hok.id_lt hok.phase hok.group hne hgroup)

/-- The events of a group, put off. -/
def moved (a : Agenda) (delay group : Nat) (events : List PlannedEvent) : List PlannedEvent :=
  (events.filter (·.group = group)).map fun e => e.again (e.time + delay) (a.insertions + e.inserted)

theorem pairwise_moved (h : Refines m a sorted) (delay group : Nat) :
    (moved a delay group sorted).Pairwise PlannedEvent.Before := by
  rw [moved, pairwise_map]
  apply (h.order.filter _).imp
  intro x y hbefore
  cases hbefore with
  | inl hlt => exact .inl (Nat.add_lt_add_right hlt delay)
  | inr heq => exact .inr ⟨congrArg (· + delay) heq.1, Nat.add_lt_add_left heq.2 a.insertions⟩

/-- The pairs `DelayEvents` takes out, with their new times. -/
theorem delayed_eq (h : Refines m a sorted) (hne : group ≠ 0) (hgroup : group ≤ 8)
    (hfits : ∀ e ∈ a.planned, e.group = group → e.time + delay < 4294967296) :
    ((m.eventMap.items.filter fun x => x.2 &&& 1 <<< (group + 15) ≠ 0).map
      fun x => (addU32 x.1 delay, x.2)) = (moved a delay group sorted).map stored := by
  have hfilter : sorted.filter ((fun x : Nat × Nat => decide (x.2 &&& 1 <<< (group + 15) ≠ 0)) ∘
      stored) = sorted.filter (·.group = group) :=
    filter_congr fun e he => h.inGroup_eq hne hgroup (h.mem.mp he)
  rw [h.items, filter_map, hfilter, moved, map_map, map_map]
  apply map_congr_left
  intro e he
  have hlt := hfits e (h.mem.mp (mem_of_mem_filter he))
    (of_decide_eq_true (mem_filter.mp he).2)
  exact congrArg (fun t => (t, packEvent e.id e.group e.phase)) (Nat.mod_eq_of_lt hlt)

/-- The pairs `DelayEvents` leaves. -/
theorem kept_eq (h : Refines m a sorted) (hne : group ≠ 0) (hgroup : group ≤ 8) :
    (m.eventMap.items.filter fun x => !decide (x.2 &&& 1 <<< (group + 15) ≠ 0)) =
      (sorted.filter (¬ ·.group = group)).map stored := by
  rw [h.items, filter_map]
  apply congrArg (map stored)
  apply filter_congr
  intro e he
  show (!decide ((stored e).2 &&& 1 <<< (group + 15) ≠ 0)) = _
  rw [h.inGroup_eq hne hgroup (h.mem.mp he), decide_not]

/-- The events of the group and the others are all events. -/
theorem perm_moved (a : Agenda) (delay group : Nat) (events : List PlannedEvent) :
    (moved a delay group events ++ events.filter (¬ ·.group = group)).Perm
      (events.map fun e => if e.group = group then
        e.again (e.time + delay) (a.insertions + e.inserted) else e) := by
  induction events with
  | nil => exact List.Perm.refl _
  | cons e rest ih =>
    by_cases he : e.group = group
    · rw [moved, filter_cons_of_pos (by simpa using he),
        filter_cons_of_neg (by simpa using he), map_cons, map_cons, if_pos he]
      exact ih.cons _
    · rw [moved, filter_cons_of_neg (by simpa using he),
        filter_cons_of_pos (by simpa using he), map_cons, if_neg he]
      exact perm_middle.trans (ih.cons e)

/-- Delaying a group inserts its events again, in their order. -/
theorem delayGroup (h : Refines m a sorted) (hgroup : group ≤ 8)
    (hfits : group ≠ 0 → ∀ e ∈ a.planned, e.group = group → e.time + delay < 4294967296) :
    ∃ sorted', Refines (m.delayEventsGroup delay group) (a.delayGroup delay group) sorted' := by
  by_cases hne : group = 0
  · rw [delayEventsGroup, Agenda.delayGroup, if_pos (Or.inl hne), if_pos hne]
    exact ⟨sorted, h⟩
  have hmoved := h.pairwise_moved delay group
  have hdelayed : (MultiMap.empty.insertAll ((moved a delay group sorted).map stored)).items =
      (moved a delay group sorted).map stored := by
    rw [MultiMap.items_insertAll, MultiMap.items_empty, insertAllLast_eq_append, nil_append]
    rw [nil_append, pairwise_map]
    exact hmoved.imp PlannedEvent.Before.time_le
  rw [delayEventsGroup, Agenda.delayGroup, if_neg (by omega), if_neg hne]
  refine ⟨insertAllLast PlannedEvent.time (moved a delay group sorted)
    (sorted.filter (¬ ·.group = group)), ?_, ?_, ?_, h.time, h.phase, h.phases, h.last, ?_,
    h.lastOk, ?_⟩
  · exact (perm_insertAllLast _ _ _).trans ((perm_moved a delay group sorted).trans
      (h.perm.map _))
  · refine pairwise_insertAllLast (r := PlannedEvent.Before) (fun _ _ hbefore => hbefore.time_le)
      (fun _ _ hlt => .inl hlt) (fun x hx y hy hle => ?_) hmoved (h.order.filter _)
    obtain ⟨e, -, heq⟩ := mem_map.mp hx
    have hlt := h.inserted y (h.mem.mp (mem_of_mem_filter hy))
    cases Nat.lt_or_eq_of_le hle with
    | inl hless => exact .inl hless
    | inr heq' =>
      refine .inr ⟨heq', ?_⟩
      rw [← heq]
      exact Nat.lt_of_lt_of_le hlt (Nat.le_add_right _ _)
  · rw [MultiMap.items_insertAll, MultiMap.items_filter, h.delayed_eq hne hgroup (hfits hne), hdelayed,
      h.kept_eq hne hgroup]
    exact (map_insertAllLast (fun _ => rfl) _ _).symm
  · intro e he
    obtain ⟨x, hx, heq⟩ := mem_map.mp he
    have hok := h.ok x hx
    rw [← heq]
    split
    · exact ⟨hok.id_pos, hok.id_lt, hok.group, hok.phase⟩
    · exact hok
  · intro e he
    obtain ⟨x, hx, heq⟩ := mem_map.mp he
    have hlt := h.inserted x hx
    rw [← heq]
    show _ < a.insertions + a.insertions
    split
    · exact Nat.add_lt_add_left hlt a.insertions
    · exact Nat.lt_of_lt_of_le hlt (Nat.le_add_right _ _)

end Refines

/-! ### Every call -/

namespace Refines

/-- A clock or a mask of phases that both sides agree on. -/
theorem withPhase (h : Refines m a sorted) {phases : Finset Nat}
    (hmask : ∀ i, mask.testBit i = decide (i + 1 ∈ phases)) (hrange : ∀ p ∈ phases, 0 < p ∧ p ≤ 8) :
    Refines { m with phase := mask } { a with phases := phases } sorted where
  perm := h.perm
  order := h.order
  items := h.items
  time := h.time
  phase := hmask
  phases := hrange
  last := h.last
  ok := h.ok
  lastOk := h.lastOk
  inserted := h.inserted

theorem withTime (h : Refines m a sorted) {timer : Nat} (htime : time = timer) :
    Refines { m with time := time } { a with timer := timer } sorted where
  perm := h.perm
  order := h.order
  items := h.items
  time := htime
  phase := h.phase
  phases := h.phases
  last := h.last
  ok := h.ok
  lastOk := h.lastOk
  inserted := h.inserted

theorem testBit_phase (hp : p ≠ 0) : (1 <<< (p - 1)).testBit i = decide (i + 1 = p) := by
  rw [Nat.one_shiftLeft, Nat.testBit_two_pow]
  apply decide_eq_decide.mpr
  omega

section

variable (h : Refines m a sorted)
include h

theorem setPhase (hp : p ≤ 8) :
    Refines (m.setPhase p) { a with phases := if p = 0 then ∅ else {p} } sorted := by
  rw [EventMap.setPhase]
  by_cases hzero : p = 0
  · rw [if_pos hzero, if_pos hzero]
    exact h.withPhase (fun i => Nat.zero_testBit i) (fun _ hq => nomatch Finset.notMem_empty _ hq)
  · rw [if_neg hzero, if_pos hp, if_neg hzero]
    apply h.withPhase
    · intro i
      rw [testBit_phase hzero]
      exact decide_eq_decide.mpr Finset.mem_singleton.symm
    · intro q hq
      rw [Finset.mem_singleton.mp hq]
      omega

theorem addPhase (hp : p ≤ 8) :
    Refines (m.addPhase p) { a with phases := if p = 0 then a.phases else insert p a.phases }
      sorted := by
  rw [EventMap.addPhase]
  by_cases hzero : p = 0
  · rw [if_neg (by omega), if_pos hzero]
    exact h
  · rw [if_pos (by omega), if_neg hzero]
    apply h.withPhase
    · intro i
      rw [Nat.testBit_or, h.phase, testBit_phase hzero, ← Bool.decide_or]
      apply decide_eq_decide.mpr
      rw [Finset.mem_insert, or_comm]
    · intro q hq
      cases Finset.mem_insert.mp hq with
      | inl heq => omega
      | inr hmem => exact h.phases q hmem

theorem removePhase (hp : p ≤ 8) :
    Refines (m.removePhase p) { a with phases := a.phases.erase p } sorted := by
  have hrange : ∀ q ∈ a.phases.erase p, 0 < q ∧ q ≤ 8 := fun q hq =>
    h.phases q (Finset.mem_of_mem_erase hq)
  rw [EventMap.removePhase]
  by_cases hzero : p = 0
  · rw [if_neg (by omega)]
    apply h.withPhase _ hrange
    intro i
    rw [h.phase]
    apply decide_eq_decide.mpr
    rw [Finset.mem_erase]
    exact ⟨fun hmem => ⟨by omega, hmem⟩, fun hmem => hmem.2⟩
  · rw [if_pos (by omega)]
    apply h.withPhase _ hrange
    intro i
    have hfull : (0xFF : Nat) = 2 ^ 8 - 1 := rfl
    rw [Nat.testBit_and, Nat.testBit_xor, testBit_phase hzero, hfull, Nat.testBit_two_pow_sub_one,
      h.phase]
    by_cases hmem : i + 1 ∈ a.phases
    · have hi : i < 8 := (h.phases _ hmem).2
      simp [hmem, hi]
    · simp [hmem]

/-- Planning what `ScheduleEvent` and `Repeat` insert. -/
theorem insert (hok : e.Ok) (hinserted : e.inserted = a.insertions)
    {word : Nat} (hfits : a.timer + time < 4294967296) (htime : e.time = a.timer + time)
    (hword : word = packEvent e.id e.group e.phase) :
    ∃ sorted', Refines { m with eventMap := m.eventMap.insert (addU32 m.time time, word) }
      (a.plan e) sorted' := by
  have hplan := h.plan hok hinserted
  have hkey : addU32 m.time time = e.time := by
    rw [h.time, htime]
    exact Nat.mod_eq_of_lt hfits
  rw [hkey, hword]
  exact ⟨_, hplan⟩

theorem cancelEvent (id : Nat) :
    Refines (m.cancelEvent id) (a.keep (·.id ≠ id)) (sorted.filter (·.id ≠ id)) := by
  apply h.keep
  intro e he
  have hok := h.ok e he
  show (!(id == packEvent e.id e.group e.phase &&& 0xFFFF)) = _
  rw [packEvent_id hok.id_lt, decide_not]
  congr 1
  rw [Bool.beq_eq_decide_eq]
  exact decide_eq_decide.mpr eq_comm

theorem cancelEventGroup (hgroup : group ≤ 8) :
    ∃ sorted', Refines (m.cancelEventGroup group)
      (if group = 0 then a else a.keep (·.group ≠ group)) sorted' := by
  rw [EventMap.cancelEventGroup]
  by_cases hne : group = 0
  · rw [if_pos (Or.inl hne), if_pos hne]
    exact ⟨sorted, h⟩
  · rw [if_neg (by omega), if_neg hne]
    refine ⟨_, h.keep fun e he => ?_⟩
    show (!decide ((stored e).2 &&& 1 <<< (group + 15) ≠ 0)) = _
    rw [h.inGroup_eq hne hgroup he, decide_not]

end

end Refines

/-- The event map and the agenda agree, and so do the ids they have executed. -/
def Agree (s : EventMap × List Nat) (t : Agenda × List Nat) : Prop :=
  s.2 = t.2 ∧ ∃ sorted, Refines s.1 t.1 sorted

/-- Every call keeps the agreement. -/
theorem Agree.step {s : EventMap × List Nat} {t : Agenda × List Nat} (h : Agree s t)
    {call : EventMap.Call} (hfits : Agenda.Fits t call) :
    Agree (step s call) (Agenda.step t call) := by
  obtain ⟨hids, sorted, h⟩ := h
  cases call with
  | reset =>
    exact ⟨hids, [], List.Perm.refl _, List.Pairwise.nil, rfl, rfl, fun i => Nat.zero_testBit i,
      fun p hp => absurd hp (Finset.notMem_empty p), h.last,
      fun _ he => absurd he not_mem_nil, h.lastOk, fun _ he => absurd he not_mem_nil⟩
  | update time =>
    refine ⟨hids, sorted, h.withTime ?_⟩
    rw [h.time]
    exact Nat.mod_eq_of_lt hfits
  | setPhase phase => exact ⟨hids, sorted, h.setPhase hfits⟩
  | addPhase phase => exact ⟨hids, sorted, h.addPhase hfits⟩
  | removePhase phase => exact ⟨hids, sorted, h.removePhase hfits⟩
  | scheduleEvent id time group phase =>
    obtain ⟨hpos, hid, hgroup, hphase, htime⟩ := hfits
    exact ⟨hids, h.insert ⟨hpos, hid, hgroup, hphase⟩ rfl htime rfl rfl⟩
  | rescheduleEvent id time group phase =>
    obtain ⟨hpos, hid, hgroup, hphase, htime⟩ := hfits
    exact ⟨hids, (h.cancelEvent id).insert ⟨hpos, hid, hgroup, hphase⟩ rfl htime rfl rfl⟩
  | repeatEvent time =>
    obtain ⟨hsome, htime⟩ := hfits
    cases hlast : t.1.last with
    | none =>
      rw [hlast] at hsome
      exact nomatch hsome
    | some e =>
      have hok := h.lastOk e hlast
      rw [Agenda.step, hlast]
      have hagain : (e.again (t.1.timer + time) t.1.insertions).Ok :=
        ⟨hok.id_pos, hok.id_lt, hok.group, hok.phase⟩
      exact ⟨hids, h.insert hagain rfl htime rfl (h.last e hlast)⟩
  | executeEvent =>
    obtain ⟨hid, hrefines⟩ := h.execute
    refine ⟨?_, hrefines⟩
    show s.2 ++ [s.1.executeEvent.1] = t.2 ++ [t.1.execute.1]
    rw [hids, hid]
  | delayEvents delay =>
    refine ⟨hids, sorted, h.withTime ?_⟩
    rw [h.time]
    split <;> omega
  | delayEventsGroup delay group => exact ⟨hids, h.delayGroup hfits.1 hfits.2⟩
  | cancelEvent id => exact ⟨hids, _, h.cancelEvent id⟩
  | cancelEventGroup group => exact ⟨hids, h.cancelEventGroup hfits⟩

/-! ### Working off what is due -/

namespace EventMap

/-- An executed event is no longer there. -/
theorem length_executeEvent (m : EventMap) (h : m.executeEvent.1 ≠ 0) :
    m.executeEvent.2.eventMap.items.length < m.eventMap.items.length := by
  induction m using executeEvent.induct with
  | case1 m hitems =>
    rw [executeEvent_nil hitems] at h
    exact absurd rfl h
  | case2 m time event rest hitems hlater =>
    rw [executeEvent_cons hitems, if_pos hlater] at h
    exact absurd rfl h
  | case3 m time event rest hitems hnow hout ih =>
    rw [executeEvent_cons hitems, if_neg hnow, if_pos hout] at h ⊢
    have hless := ih h
    rw [MultiMap.items_eraseBegin, hitems] at hless
    rw [hitems]
    exact Nat.lt_succ_of_lt hless
  | case4 m time event rest hitems hnow hout =>
    rw [executeEvent_cons hitems, if_neg hnow, if_neg hout, hitems]
    show m.eventMap.items.tail.length < _
    rw [hitems]
    exact Nat.lt_succ_self _

/-- Call `ExecuteEvent` until it returns 0. -/
def executeAll (m : EventMap) : List Nat × EventMap :=
  if _h : m.executeEvent.1 = 0 then ([], m.executeEvent.2)
  else
    let (ids, m') := executeAll m.executeEvent.2
    (m.executeEvent.1 :: ids, m')
termination_by m.eventMap.items.length
decreasing_by exact length_executeEvent m _h

end EventMap

/-- The agenda after `executed` were executed, and nothing else is due. -/
def Agenda.workedOff (a : Agenda) (executed : List PlannedEvent) : Agenda :=
  { a.keep (¬ a.Due ·) with last := executed.getLast?.or a.last }

/-- Calling `ExecuteEvent` until it returns 0 executes the events that are due and in phase, in
the order of (time, insertion), and leaves the events that are not due. -/
def WorksOff (m : EventMap) (a : Agenda) : Prop :=
  ∃ executed, executed.Perm (a.planned.filter fun e => a.Due e ∧ a.InPhase e) ∧
    executed.Pairwise PlannedEvent.Before ∧ m.executeAll.1 = executed.map PlannedEvent.id ∧
    ∃ sorted, Refines m.executeAll.2 (a.workedOff executed) sorted

/-- The events executed, from the events in their order. -/
theorem executeAll_eq {m : EventMap} {sorted : List PlannedEvent}
    (hitems : m.eventMap.items = sorted.map stored)
    (horder : sorted.Pairwise PlannedEvent.Before) (htime : m.time = a.timer)
    (hok : ∀ e ∈ sorted, e.Ok)
    (hphase : ∀ e ∈ sorted, m.outOfPhase (packEvent e.id e.group e.phase) = true ↔ ¬ a.InPhase e) :
    m.executeAll.1 = (sorted.filter fun e => a.Due e ∧ a.InPhase e).map PlannedEvent.id ∧
      m.SameClock m.executeAll.2 ∧
      m.executeAll.2.eventMap.items = (sorted.filter (¬ a.Due ·)).map stored ∧
      m.executeAll.2.lastEvent =
        ((sorted.filter fun e => a.Due e ∧ a.InPhase e).getLast?.map
          fun e => packEvent e.id e.group e.phase).getD m.lastEvent := by
  induction m using executeAll.induct generalizing sorted with
  | case1 m hzero =>
    cases executeEvent_cases hitems horder htime hok hphase with
    | inl hnone =>
      obtain ⟨m', hexecute, hclock, hlast, hitems', hall⟩ := hnone
      have hempty : (sorted.filter fun e => a.Due e ∧ a.InPhase e) = [] := by
        apply filter_eq_nil_iff.mpr
        intro e he hboth
        have hboth := of_decide_eq_true hboth
        exact hall e he hboth.1 hboth.2
      rw [executeAll, dif_pos hzero, hexecute, hempty]
      exact ⟨rfl, hclock, hitems', hlast⟩
    | inr hsome =>
      obtain ⟨e, dropped, later, m', hexecute, -, -, -, hsplit, -⟩ := hsome
      have he : e ∈ sorted := by
        rw [hsplit]
        exact mem_append_right _ mem_cons_self
      rw [hexecute] at hzero
      exact absurd hzero (Nat.ne_of_gt (hok e he).id_pos)
  | case2 m hne _ _ _ ih =>
    cases executeEvent_cases hitems horder htime hok hphase with
    | inl hnone =>
      obtain ⟨m', hexecute, -⟩ := hnone
      rw [hexecute] at hne
      exact absurd rfl hne
    | inr hsome =>
      obtain ⟨e, dropped, later, m', hexecute, hclock, hlast, hitems', hsplit, hdue, hin, hdrop⟩ :=
        hsome
      have hsub : ∀ x ∈ later, x ∈ sorted := by
        intro x hx
        rw [hsplit]
        exact mem_append_right _ (mem_cons_of_mem _ hx)
      have hrest : later.Pairwise PlannedEvent.Before := by
        rw [hsplit, pairwise_append, pairwise_cons] at horder
        exact horder.2.1.2
      have hexecuted : (sorted.filter fun e => a.Due e ∧ a.InPhase e) =
          e :: later.filter fun e => a.Due e ∧ a.InPhase e := by
        rw [hsplit, filter_append, filter_cons_of_pos (by simp [hdue, hin]),
          filter_eq_nil_iff.mpr, nil_append]
        intro x hx
        simp [(hdrop x hx).2]
      have hleft : sorted.filter (¬ a.Due ·) = later.filter (¬ a.Due ·) := by
        rw [hsplit, filter_append, filter_cons_of_neg (by simp [hdue]),
          filter_eq_nil_iff.mpr, nil_append]
        intro x hx
        simp [(hdrop x hx).1]
      rw [hexecute] at ih
      have hphase' : ∀ x ∈ later, m'.outOfPhase (packEvent x.id x.group x.phase) = true ↔
          ¬ a.InPhase x := by
        intro x hx
        have hx' := hphase x (hsub x hx)
        rw [outOfPhase] at hx' ⊢
        rw [hclock.2]
        exact hx'
      obtain ⟨hids, hclock', hitems'', hlast'⟩ := ih hitems' hrest (hclock.1.trans htime)
        (fun x hx => hok x (hsub x hx)) hphase'
      have hall : m.executeAll = (e.id :: m'.executeAll.1, m'.executeAll.2) := by
        rw [executeAll, dif_neg hne, hexecute]
      rw [hall, hexecuted, hleft]
      refine ⟨?_, ⟨hclock'.1.trans hclock.1, hclock'.2.trans hclock.2⟩, hitems'', ?_⟩
      · rw [map_cons, hids]
      · rw [hlast', hlast, getLast?_cons]
        cases (later.filter fun e => a.Due e ∧ a.InPhase e).getLast? <;> rfl

namespace Refines

/-- An event map works off the agenda it refines. -/
theorem worksOff (h : Refines m a sorted) : WorksOff m a := by
  obtain ⟨hids, hclock, hitems, hlast⟩ := executeAll_eq h.items h.order h.time
    (fun e he => h.ok e (h.mem.mp he)) (fun e he => h.outOfPhase_iff (h.ok e (h.mem.mp he)))
  refine ⟨sorted.filter fun e => a.Due e ∧ a.InPhase e, h.perm.filter _, h.order.filter _, hids,
    sorted.filter (¬ a.Due ·), h.perm.filter _, h.order.filter _, hitems, hclock.1.trans h.time,
    fun i => ?_, h.phases, fun e he => ?_, fun e he => h.ok e (mem_of_mem_filter he),
    fun e he => ?_, fun e he => h.inserted e (mem_of_mem_filter he)⟩
  · rw [hclock.2]
    exact h.phase i
  · rw [hlast]
    change (sorted.filter fun e => a.Due e ∧ a.InPhase e).getLast?.or a.last = some e at he
    cases hsome : (sorted.filter fun e => a.Due e ∧ a.InPhase e).getLast? with
    | none =>
      rw [hsome] at he
      exact h.last e he
    | some x =>
      rw [hsome] at he
      cases he
      rfl
  · change (sorted.filter fun e => a.Due e ∧ a.InPhase e).getLast?.or a.last = some e at he
    cases hsome : (sorted.filter fun e => a.Due e ∧ a.InPhase e).getLast? with
    | none =>
      rw [hsome] at he
      exact h.lastOk e he
    | some x =>
      rw [hsome] at he
      cases he
      exact h.ok e (h.mem.mp (mem_of_mem_filter (mem_of_getLast? hsome)))

end Refines

theorem agree_empty : Agree ({}, []) ({}, []) :=
  ⟨rfl, [], List.Perm.refl _, List.Pairwise.nil, rfl, rfl, fun i => Nat.zero_testBit i,
    fun p hp => absurd hp (Finset.notMem_empty p), fun _ he => (nomatch he),
    fun _ he => absurd he not_mem_nil, fun _ he => (nomatch he),
    fun _ he => absurd he not_mem_nil⟩

open StateMachine

/-- After every series of calls in range the event map holds what the agenda has planned, has
executed the same ids, and works off what is due. -/
theorem eventMap_refines_agenda (calls : List EventMap.Call)
    (hfits : Admits Agenda.step Agenda.Fits ({}, []) calls) :
    Agree (run EventMap.step ({}, []) calls) (run Agenda.step ({}, []) calls) ∧
      WorksOff (run EventMap.step ({}, []) calls).1 (run Agenda.step ({}, []) calls).1 := by
  have hagree : Agree (run EventMap.step ({}, []) calls) (run Agenda.step ({}, []) calls) :=
    run_simulation_of_admits agree_empty (fun s t call h hok => @Agree.step s t h call hok) calls hfits
  obtain ⟨-, sorted, h⟩ := id hagree
  exact ⟨hagree, h.worksOff⟩

/-- Events of two phases and a group, one of them delayed, in the first phase. -/
theorem eventMap_refines_agenda_phases :
    Agree (run EventMap.step ({}, []) [.scheduleEvent 1 1000 1 0, .scheduleEvent 2 1000 0 2,
        .setPhase 1, .delayEventsGroup 500 1, .update 1000])
      (run Agenda.step ({}, []) [.scheduleEvent 1 1000 1 0, .scheduleEvent 2 1000 0 2,
        .setPhase 1, .delayEventsGroup 500 1, .update 1000]) ∧
    WorksOff (run EventMap.step ({}, []) [.scheduleEvent 1 1000 1 0, .scheduleEvent 2 1000 0 2,
        .setPhase 1, .delayEventsGroup 500 1, .update 1000]).1
      (run Agenda.step ({}, []) [.scheduleEvent 1 1000 1 0, .scheduleEvent 2 1000 0 2,
        .setPhase 1, .delayEventsGroup 500 1, .update 1000]).1 :=
  eventMap_refines_agenda _ (by
    simp [Admits, Agenda.Fits, Agenda.step, Agenda.plan, Agenda.delayGroup])

end TrinityCore.Utilities
