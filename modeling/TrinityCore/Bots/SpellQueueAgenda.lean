import Mathlib.Algebra.Ring.Nat
import Mathlib.Order.Lattice.Nat
import TrinityCore.Bots.SpellQueue
import TrinityCore.Lib.StateMachine

/-!
# The spell queue refines an agenda

An agenda is the plain map the queue stands for: at most one intent per key, the latest
one scheduled and not yet released or cleared. The heap also holds superseded entries.
The relation between the two says that the agenda is exactly the current part of the
heap; every operation keeps it, whichever of the four places discards.
-/

namespace TrinityCore.Bots.SpellQueue

open List PriorityQueue

open StateMachine

/-- The plain map: the entries in force, at most one for each key. -/
structure Agenda where
  entries : Finset Entry := ∅
  functional : ∀ a ∈ entries, ∀ b ∈ entries, a.key = b.key → a = b := by simp
  nextSerial : Nat := 0

variable {m : Agenda} {q q' : Queue} {a b top : Entry}

namespace Agenda

@[ext] theorem ext {n : Agenda} (he : m.entries = n.entries) (hs : m.nextSerial = n.nextSerial) :
    m = n := by
  cases m
  cases n
  simp_all

variable (m : Agenda)

/-- Keep the entries that satisfy `p`. -/
def restrict (p : Entry → Prop) [DecidablePred p] : Agenda where
  entries := m.entries.filter p
  functional a ha b hb := m.functional a (Finset.mem_of_mem_filter a ha) b
    (Finset.mem_of_mem_filter b hb)
  nextSerial := m.nextSerial

/-- Bind a key to a fresh entry, forgetting what it was bound to. -/
def schedule (key reason : String) (priority : UInt8) (readyAtMs nowMs : UInt64) : Agenda where
  entries := insert
    { key := key
      reason := reason
      priority := priority
      readyAtMs := Queue.clampReadyAtMs readyAtMs nowMs
      queuedAtMs := nowMs
      serial := m.nextSerial + 1 }
    (m.entries.filter (·.key ≠ key))
  functional := by
    intro a ha b hb hk
    rw [Finset.mem_insert, Finset.mem_filter] at ha hb
    rcases ha with rfl | ⟨ha, hna⟩ <;> rcases hb with rfl | ⟨hb, hnb⟩
    · rfl
    · exact absurd hk.symm hnb
    · exact absurd hk hna
    · exact m.functional a ha b hb hk
  nextSerial := m.nextSerial + 1

/-- Entries whose release time has come. -/
def due (nowMs : UInt64) : Finset Entry := m.entries.filter (·.readyAtMs ≤ nowMs)

/-- Remove exactly the due entries. -/
def releaseDue (nowMs : UInt64) : Agenda :=
  m.restrict fun entry => ¬ entry.readyAtMs ≤ nowMs

/-- The earliest release time of a nonempty agenda. -/
def minReadyAtMs (h : m.entries.Nonempty) : Nat :=
  m.entries.inf' h fun entry => entry.readyAtMs.toNat

/-- Delay until the earliest release, at least one and at most the current timer. -/
def wakeDelayMs (nowMs : UInt64) (currentTimerMs : UInt32) : Nat :=
  if h : m.entries.Nonempty then
    max 1 (min currentTimerMs.toNat (max 1 (m.minReadyAtMs h - nowMs.toNat)))
  else currentTimerMs.toNat

/-- Forget every entry. -/
def clear : Agenda where
  nextSerial := m.nextSerial

/-- `a` is released before `b`: earlier, or together with a higher priority, or queued
first. -/
def Before (a b : Entry) : Prop :=
  a.readyAtMs < b.readyAtMs ∨ a.readyAtMs = b.readyAtMs ∧
    (b.priority < a.priority ∨ a.priority = b.priority ∧ a.serial < b.serial)

/-- The entry released before all others. -/
def IsMinimum (entry : Entry) : Prop :=
  entry ∈ m.entries ∧ ∀ other ∈ m.entries, other ≠ entry → Before entry other

end Agenda

/-- Where the clock is far from its end, the stored release time is the requested one
brought into `[now, now + MaxWaitMs]`. -/
theorem toNat_clampReadyAtMs (readyAtMs nowMs : UInt64)
    (hnow : nowMs.toNat + maxWaitMs.toNat < 2 ^ 64) :
    (Queue.clampReadyAtMs readyAtMs nowMs).toNat =
      min (max readyAtMs.toNat nowMs.toNat) (nowMs.toNat + maxWaitMs.toNat) := by
  have hadd : (nowMs + maxWaitMs).toNat = nowMs.toNat + maxWaitMs.toNat := by
    rw [UInt64.toNat_add, Nat.mod_eq_of_lt hnow]
  rw [Queue.clampReadyAtMs, UInt64.toNat_min, UInt64.toNat_max, hadd]

/-! ### The refinement relation -/

/-- The agenda is the current part of the heap; serials are distinct and were all issued. -/
structure Refines (q : Queue) (m : Agenda) : Prop where
  distinct : (q.pending.items.map (·.serial)).Nodup
  issued : ∀ entry ∈ q.pending.items, entry.serial ≤ q.nextSerial
  serial : m.nextSerial = q.nextSerial
  mem_iff : ∀ entry, entry ∈ m.entries ↔ entry ∈ q.pending.items ∧ q.isCurrent entry = true

/-- Nothing is scheduled in a new queue. -/
theorem refines_init : Refines {} {} where
  distinct := nodup_nil
  issued := by simp
  serial := rfl
  mem_iff := by simp

/-- The relation sees the heap only as a multiset of entries. -/
theorem Refines.of_perm (h : Refines q m) (hp : q'.pending.items.Perm q.pending.items)
    (hc : q'.currentSerialByKey = q.currentSerialByKey) (hn : q'.nextSerial = q.nextSerial) :
    Refines q' m where
  distinct := (hp.map _).nodup_iff.mpr h.distinct
  issued entry he := by
    rw [hn]
    exact h.issued entry (hp.mem_iff.mp he)
  serial := by rw [hn, h.serial]
  mem_iff entry := by rw [h.mem_iff, hp.mem_iff, Queue.isCurrent, Queue.isCurrent, hc]

/-- Dropping superseded entries from the heap, in whatever way, keeps the relation. -/
theorem Refines.of_sublist (h : Refines q m) (hsub : q'.pending.items.Sublist q.pending.items)
    (hkept : ∀ entry ∈ q.pending.items, q.isCurrent entry = true → entry ∈ q'.pending.items)
    (hc : q'.currentSerialByKey = q.currentSerialByKey) (hn : q'.nextSerial = q.nextSerial) :
    Refines q' m where
  distinct := h.distinct.sublist (hsub.map _)
  issued entry he := by
    rw [hn]
    exact h.issued entry (hsub.subset he)
  serial := by rw [hn, h.serial]
  mem_iff entry := by
    have hcur : q'.isCurrent entry = q.isCurrent entry := by
      rw [Queue.isCurrent, Queue.isCurrent, hc]
    rw [h.mem_iff, hcur]
    constructor
    · rintro ⟨he, hi⟩
      exact ⟨hkept entry he hi, hi⟩
    · rintro ⟨he, hi⟩
      exact ⟨hsub.subset he, hi⟩

/-- Two heap entries of one serial are the same entry. -/
theorem Refines.eq_of_serial (h : Refines q m) (ha : a ∈ q.pending.items) (hb : b ∈ q.pending.items)
    (hs : a.serial = b.serial) : a = b := inj_on_of_nodup_map h.distinct ha hb hs

/-! ### Scheduling -/

/-- Compaction keeps exactly the current entries. -/
theorem refines_dropSuperseded (h : Refines q m) : Refines q.dropSuperseded m := by
  have hfiltered : Refines { q with pending :=
      ⟨q.pending.items.filter q.isCurrent, q.pending.ordered.sublist filter_sublist⟩ } m :=
    h.of_sublist filter_sublist (fun entry he hi => mem_filter.mpr ⟨he, hi⟩) rfl rfl
  refine hfiltered.of_perm ?_ rfl rfl
  have hp := pushAll_perm
    (empty : PriorityQueue releasedLater) (q.pending.items.filter q.isCurrent)
  rwa [items_empty, append_nil] at hp

/-- Scheduling supersedes the key's old entry and adds the new one. -/
theorem refines_schedule (h : Refines q m) (key reason : String) (priority : UInt8)
    (readyAtMs nowMs : UInt64) :
    Refines (q.schedule key reason priority readyAtMs nowMs)
      (m.schedule key reason priority readyAtMs nowMs) := by
  let entry : Entry :=
    { key := key
      reason := reason
      priority := priority
      readyAtMs := Queue.clampReadyAtMs readyAtMs nowMs
      queuedAtMs := nowMs
      serial := q.nextSerial + 1 }
  let pushed : Queue :=
    { q with
      nextSerial := q.nextSerial + 1
      currentSerialByKey := q.currentSerialByKey.insert key entry.serial
      pending := q.pending.push entry
      scheduled := q.scheduled + 1 }
  have hperm : pushed.pending.items.Perm (entry :: q.pending.items) := q.pending.push_perm entry
  have hcurrent (e : Entry) : pushed.isCurrent e =
      if e.key = key then decide (e.serial = q.nextSerial + 1) else q.isCurrent e := by
    change ((q.currentSerialByKey.insert key (q.nextSerial + 1))[e.key]? == some e.serial) = _
    rw [Std.ExtTreeMap.getElem?_insert]
    by_cases hk : e.key = key
    · simp only [hk, Std.compare_self, if_true, Option.some_beq_some]
      rw [Bool.eq_iff_iff, beq_iff_eq, decide_eq_true_iff]
      exact eq_comm
    · have hne : ¬ compare key e.key = .eq := fun hc => hk (Std.compare_eq_iff_eq.mp hc).symm
      simp [hk, hne, Queue.isCurrent]
  have hpushed : Refines pushed (m.schedule key reason priority readyAtMs nowMs) :=
    { distinct := by
        rw [(hperm.map _).nodup_iff, map_cons, nodup_cons]
        refine ⟨?_, h.distinct⟩
        intro hm
        obtain ⟨e, he, hs⟩ := mem_map.mp hm
        have := h.issued e he
        change e.serial = q.nextSerial + 1 at hs
        omega
      issued := by
        intro e he
        change e.serial ≤ q.nextSerial + 1
        rcases mem_cons.mp (hperm.mem_iff.mp he) with rfl | he
        · exact le_rfl
        · have := h.issued e he
          omega
      serial := by
        change m.nextSerial + 1 = q.nextSerial + 1
        rw [h.serial]
      mem_iff := by
        intro e
        rw [hperm.mem_iff, mem_cons, hcurrent]
        simp only [Agenda.schedule, Finset.mem_insert, Finset.mem_filter, h.mem_iff, h.serial]
        change e = entry ∨ _ ↔ _
        by_cases hk : e.key = key
        · constructor
          · rintro (rfl | ⟨-, hn⟩)
            · exact ⟨.inl rfl, by simp [entry]⟩
            · exact absurd hk hn
          · rintro ⟨rfl | he, hs⟩
            · exact .inl rfl
            · have hi := h.issued e he
              simp only [hk, if_true, decide_eq_true_eq] at hs
              omega
        · have hne : e ≠ entry := fun heq => hk (congrArg Entry.key heq)
          simp [hk, hne] }
  have hresult : q.schedule key reason priority readyAtMs nowMs =
      if pushed.pending.size > 4 * pushed.currentSerialByKey.size + 8 then
        pushed.dropSuperseded else pushed := rfl
  rw [hresult]
  split
  · exact refines_dropSuperseded hpushed
  · exact hpushed

/-! ### Releasing -/

private theorem mem_pop_iff (h : Refines q m) (htop : q.pending.top? = some top) (entry : Entry) :
    entry ∈ q.pending.pop.items ↔ entry ∈ q.pending.items ∧ entry ≠ top := by
  have hitems := items_of_top? htop
  have hnodup : (top :: q.pending.pop.items).Nodup := by
    rw [← hitems]
    exact List.Nodup.of_map _ h.distinct
  rw [hitems, mem_cons]
  constructor
  · intro he
    exact ⟨.inr he, fun heq => (nodup_cons.mp hnodup).1 (heq ▸ he)⟩
  · rintro ⟨rfl | he, hne⟩
    · exact absurd rfl hne
    · exact he

/-- Popping a superseded top keeps the relation. -/
theorem refines_pop_superseded (h : Refines q m) (htop : q.pending.top? = some top)
    (hcur : q.isCurrent top = false) : Refines { q with pending := q.pending.pop } m := by
  refine h.of_sublist (tail_sublist _) ?_ rfl rfl
  intro entry he hi
  refine (mem_pop_iff h htop entry).mpr ⟨he, ?_⟩
  rintro rfl
  rw [hcur] at hi
  exact nomatch hi

/-- Releasing the current top removes exactly that entry from the agenda. -/
theorem refines_release (h : Refines q m) (htop : q.pending.top? = some top)
    (hcur : q.isCurrent top = true) (nowMs : UInt64) (resumed : Bool) :
    Refines { q.release top nowMs resumed with pending := (q.release top nowMs resumed).pending.pop }
      (m.restrict (· ≠ top)) where
  distinct := h.distinct.sublist ((tail_sublist _).map _)
  issued entry he := h.issued entry (mem_of_mem_tail he)
  serial := h.serial
  mem_iff entry := by
    have htmem : top ∈ q.pending.items := (top?_greatest htop).1
    change entry ∈ m.entries.filter (· ≠ top) ↔ entry ∈ q.pending.pop.items ∧
      ((q.currentSerialByKey.erase top.key)[entry.key]? == some entry.serial) = true
    rw [Finset.mem_filter, h.mem_iff, mem_pop_iff h htop, Std.ExtTreeMap.getElem?_erase]
    by_cases hk : top.key = entry.key
    · -- the only current entry of this key is the released one
      have hsame : q.isCurrent entry = true → entry ∈ q.pending.items → entry = top := by
        intro hi he
        apply h.eq_of_serial he htmem
        rw [Queue.isCurrent, beq_iff_eq] at hi hcur
        rw [← hk, hcur] at hi
        exact (Option.some.inj hi).symm
      simp only [hk, Std.compare_self, if_true]
      constructor
      · rintro ⟨⟨he, hi⟩, hne⟩
        exact absurd (hsame hi he) hne
      · rintro ⟨-, hi⟩
        simp at hi
    · have hne : ¬ compare top.key entry.key = .eq := fun hc => hk (Std.compare_eq_iff_eq.mp hc)
      simp only [hne, if_false, Queue.isCurrent]
      tauto

/-- The release loop releases exactly the due entries and counts them. -/
theorem releaseLoop_refines (nowMs : UInt64) (resumed : Bool) (fuel : Nat) (released : Nat)
    (h : Refines q m) (hfuel : q.pending.size ≤ fuel) :
    Refines (Queue.releaseLoop nowMs resumed fuel q released).1 (m.releaseDue nowMs) ∧
      (Queue.releaseLoop nowMs resumed fuel q released).2 = released + (m.due nowMs).card := by
  -- nothing is due: the agenda is what it was
  have hnone {q : Queue} {m : Agenda} (h : Refines q m)
      (hlate : ∀ entry ∈ q.pending.items, ¬ entry.readyAtMs ≤ nowMs) :
      m.releaseDue nowMs = m ∧ (m.due nowMs).card = 0 := by
    have hm : ∀ entry ∈ m.entries, ¬ entry.readyAtMs ≤ nowMs :=
      fun entry he => hlate entry ((h.mem_iff entry).mp he).1
    constructor
    · exact Agenda.ext (Finset.filter_true_of_mem hm) rfl
    · rw [Finset.card_eq_zero, Agenda.due, Finset.filter_eq_empty_iff]
      exact fun entry he => hm entry he
  induction fuel generalizing q m released with
  | zero =>
    have hempty : q.pending.items = [] := length_eq_zero_iff.mp (Nat.le_zero.mp hfuel)
    obtain ⟨hm, hc⟩ := hnone h (by simp [hempty])
    rw [hm, hc]
    exact ⟨h, rfl⟩
  | succ fuel ih =>
    rw [Queue.releaseLoop]
    split
    · next htop =>
      have hempty := top?_eq_none_iff.mp htop
      obtain ⟨hm, hc⟩ := hnone h (by simp [hempty])
      rw [hm, hc]
      exact ⟨h, rfl⟩
    · next top htop =>
      have hsize : q.pending.pop.size ≤ fuel := by
        have := congrArg length (items_of_top? htop)
        rw [length_cons] at this
        change q.pending.items.length ≤ fuel + 1 at hfuel
        change q.pending.pop.items.length ≤ fuel
        omega
      obtain ⟨htmem, hfirst⟩ := top?_greatest htop
      split
      · next hdue =>
        split
        · next hcur =>
          have htm : top ∈ m.entries := (h.mem_iff top).mpr ⟨htmem, hcur⟩
          obtain ⟨hr, hc⟩ := ih (released + 1) (refines_release h htop hcur nowMs resumed) hsize
          have hrest : (m.restrict (· ≠ top)).releaseDue nowMs = m.releaseDue nowMs := by
            refine Agenda.ext ?_ rfl
            ext entry
            simp only [Agenda.releaseDue, Agenda.restrict, Finset.mem_filter]
            constructor
            · rintro ⟨⟨he, -⟩, hl⟩
              exact ⟨he, hl⟩
            · rintro ⟨he, hl⟩
              exact ⟨⟨he, fun heq => hl (heq ▸ hdue)⟩, hl⟩
          have hcount : (m.due nowMs).card = ((m.restrict (· ≠ top)).due nowMs).card + 1 := by
            have hins : m.due nowMs = insert top ((m.restrict (· ≠ top)).due nowMs) := by
              ext entry
              simp only [Agenda.due, Agenda.restrict, Finset.mem_filter, Finset.mem_insert]
              constructor
              · rintro ⟨he, hl⟩
                by_cases heq : entry = top
                · exact .inl heq
                · exact .inr ⟨⟨he, heq⟩, hl⟩
              · rintro (rfl | ⟨⟨he, -⟩, hl⟩)
                · exact ⟨htm, hdue⟩
                · exact ⟨he, hl⟩
            rw [hins, Finset.card_insert_of_notMem]
            simp [Agenda.due, Agenda.restrict]
          rw [hrest] at hr
          refine ⟨hr, ?_⟩
          rw [hc, hcount]
          omega
        · next hcur =>
          exact ih released (refines_pop_superseded h htop (Bool.not_eq_true _ ▸ hcur)) hsize
      · next hlate =>
        have hall : ∀ entry ∈ q.pending.items, ¬ entry.readyAtMs ≤ nowMs := by
          intro entry he
          rcases hfirst entry he with rfl | hl
          · exact hlate
          · simp only [releasedLater] at hl
            grind
        obtain ⟨hm, hc⟩ := hnone h hall
        rw [hm, hc]
        exact ⟨h, rfl⟩

/-- `ReleaseDue` refines the agenda's. -/
theorem refines_releaseDue (h : Refines q m) (nowMs : UInt64) :
    Refines (q.releaseDue nowMs).1 (m.releaseDue nowMs) ∧
      (q.releaseDue nowMs).2 = (m.due nowMs).card := by
  have hcheck : Refines { q with lastReleaseCheckMs := nowMs } m :=
    h.of_perm (List.Perm.refl _) rfl rfl
  have hloop := releaseLoop_refines nowMs
    (decide (q.lastReleaseCheckMs ≠ 0) &&
      decide (nowMs > q.lastReleaseCheckMs + pausedReleaseGapMs))
    q.pending.size 0 hcheck le_rfl
  rw [Nat.zero_add] at hloop
  exact hloop

/-! ### Lazy deletion and the questions asked of the queue -/

/-- Discarding superseded tops keeps the relation. -/
theorem refines_discardSuperseded (h : Refines q m) : Refines q.discardSuperseded m := by
  refine h.of_sublist (dropWhile_sublist _) ?_ rfl rfl
  intro entry he hi
  have hkept := filter_popWhile (fun entry => !q.isCurrent entry) q.pending
  have hmem : entry ∈ q.pending.items.filter (fun e => !!q.isCurrent e) := by
    rw [mem_filter]
    exact ⟨he, by simp [hi]⟩
  rw [← hkept] at hmem
  exact (mem_filter.mp hmem).1

/-- After lazy deletion the top is the agenda's minimum. -/
theorem isMinimum_of_top (h : Refines q m) (htop : q.discardSuperseded.pending.top? = some top) :
    m.IsMinimum top := by
  have hq := refines_discardSuperseded h
  obtain ⟨htmem, hfirst⟩ := top?_greatest htop
  have hcur : q.isCurrent top = true := by
    have := top?_popWhile htop
    simpa using this
  constructor
  · exact (hq.mem_iff top).mpr ⟨htmem, hcur⟩
  · intro other ho hne
    have hmem := ((hq.mem_iff other).mp ho).1
    have hserial : top.serial ≠ other.serial :=
      fun hs => hne (hq.eq_of_serial htmem hmem hs).symm
    have hl := (hfirst other hmem).resolve_left hne
    simp only [releasedLater] at hl
    simp only [Agenda.Before]
    grind

/-- After lazy deletion nothing is on top exactly when the agenda is empty. -/
theorem top_eq_none_iff (h : Refines q m) :
    q.discardSuperseded.pending.top? = none ↔ m.entries = ∅ := by
  constructor
  · intro hnone
    have hempty := top?_eq_none_iff.mp hnone
    rw [Finset.eq_empty_iff_forall_notMem]
    intro entry he
    have hmem := (((refines_discardSuperseded h).mem_iff entry).mp he).1
    rw [hempty] at hmem
    exact not_mem_nil hmem
  · intro hempty
    cases htop : q.discardSuperseded.pending.top? with
    | none => rfl
    | some top =>
      have hm := (isMinimum_of_top h htop).1
      rw [hempty] at hm
      exact absurd hm (Finset.notMem_empty top)

/-- An agenda has at most one minimum. -/
theorem Agenda.IsMinimum.unique (ha : m.IsMinimum a) (hb : m.IsMinimum b) : a = b := by
  by_contra hne
  have hab := ha.2 b hb.1 (Ne.symm hne)
  have hba := hb.2 a ha.1 hne
  simp only [Agenda.Before] at hab hba
  grind

/-- The top after lazy deletion is the agenda's minimum, whichever is given. -/
theorem top_eq_some_iff (h : Refines q m) (entry : Entry) :
    q.discardSuperseded.pending.top? = some entry ↔ m.IsMinimum entry := by
  constructor
  · exact isMinimum_of_top h
  · intro hmin
    cases htop : q.discardSuperseded.pending.top? with
    | none =>
      have hm := hmin.1
      rw [(top_eq_none_iff h).mp htop] at hm
      exact absurd hm (Finset.notMem_empty entry)
    | some top => rw [(isMinimum_of_top h htop).unique hmin]

private theorem minReadyAtMs_eq (hmin : m.IsMinimum top) (hne : m.entries.Nonempty) :
    m.minReadyAtMs hne = top.readyAtMs.toNat := by
  apply le_antisymm
  · exact Finset.inf'_le _ hmin.1
  · apply Finset.le_inf'
    intro other ho
    by_cases heq : other = top
    · rw [heq]
    · have hb := hmin.2 other ho heq
      rw [Agenda.Before, UInt64.lt_iff_toNat_lt, ← UInt64.toNat_inj] at hb
      omega

private theorem toNat_wakeDelay (readyAtMs nowMs : UInt64) (currentTimerMs : UInt32) :
    (max 1 (min currentTimerMs.toUInt64
      (if readyAtMs > nowMs then readyAtMs - nowMs else 1))).toUInt32.toNat =
    max 1 (min currentTimerMs.toNat (max 1 (readyAtMs.toNat - nowMs.toNat))) := by
  have hdelay : (if readyAtMs > nowMs then readyAtMs - nowMs else 1).toNat =
      max 1 (readyAtMs.toNat - nowMs.toNat) := by
    split
    · next hgt =>
      have hlt := UInt64.lt_iff_toNat_lt.mp hgt
      rw [UInt64.toNat_sub_of_le _ _ (UInt64.le_iff_toNat_le.mpr hlt.le)]
      omega
    · next hle =>
      have hle := mt UInt64.lt_iff_toNat_lt.mpr hle
      change 1 = _
      omega
  have hone : (1 : UInt64).toNat = 1 := rfl
  rw [UInt64.toNat_toUInt32, UInt64.toNat_max, UInt64.toNat_min, hdelay, hone,
    UInt32.toNat_toUInt64]
  have := currentTimerMs.toNat_lt
  omega

/-- `WakeDelayMs` answers the agenda's delay and keeps the relation. -/
theorem refines_wakeDelayMs (h : Refines q m) (nowMs : UInt64) (currentTimerMs : UInt32) :
    Refines (q.wakeDelayMs nowMs currentTimerMs).1 m ∧
      (q.wakeDelayMs nowMs currentTimerMs).2.toNat = m.wakeDelayMs nowMs currentTimerMs := by
  have hq := refines_discardSuperseded h
  unfold Queue.wakeDelayMs
  cases htop : q.discardSuperseded.pending.top? with
  | none =>
    have hempty : ¬ m.entries.Nonempty :=
      Finset.not_nonempty_iff_eq_empty.mpr ((top_eq_none_iff h).mp htop)
    rw [Agenda.wakeDelayMs, dif_neg hempty]
    simp only [htop, and_true]
    exact hq
  | some top =>
    have hmin := isMinimum_of_top h htop
    have hne : m.entries.Nonempty := ⟨top, hmin.1⟩
    rw [Agenda.wakeDelayMs, dif_pos hne, minReadyAtMs_eq hmin hne]
    simp only [htop]
    exact ⟨hq, toNat_wakeDelay top.readyAtMs nowMs currentTimerMs⟩

/-- `Empty` answers whether the agenda is empty and keeps the relation. -/
theorem refines_checkEmpty (h : Refines q m) :
    Refines q.checkEmpty.1 m ∧ q.checkEmpty.2 = decide (m.entries = ∅) := by
  constructor
  · exact refines_discardSuperseded h
  · rw [Bool.eq_iff_iff, decide_eq_true_iff, ← top_eq_none_iff h,
      top?_eq_none_iff]
    exact isEmpty_iff

/-- `Clear` forgets every entry. -/
theorem refines_clear (h : Refines q m) : Refines q.clear m.clear := by
  unfold Queue.clear
  split
  · next hempty =>
    have hitems : q.pending.items = [] := isEmpty_iff.mp ((Bool.and_eq_true _ _).mp hempty).1
    exact
      { distinct := h.distinct
        issued := h.issued
        serial := h.serial
        mem_iff := by simp [Agenda.clear, hitems] }
  · exact
      { distinct := nodup_nil
        issued := by simp
        serial := h.serial
        mem_iff := by simp [Agenda.clear] }

/-! ### Runs -/

/-- The operations on a queue. -/
inductive Op where
  | schedule (key reason : String) (priority : UInt8) (readyAtMs nowMs : UInt64)
  | releaseDue (nowMs : UInt64)
  | wakeDelayMs (nowMs : UInt64) (currentTimerMs : UInt32)
  | empty
  | clear

/-- What an operation answers. -/
inductive Answer where
  | done
  | released (count : Nat)
  | delay (ms : Nat)
  | empty (answer : Bool)
  deriving DecidableEq, Repr

/-- One operation on the queue, its answer appended to those before. -/
def queueStep (s : Queue × List Answer) : Op → Queue × List Answer
  | .schedule key reason priority readyAtMs nowMs =>
    (s.1.schedule key reason priority readyAtMs nowMs, s.2 ++ [.done])
  | .releaseDue nowMs =>
    ((s.1.releaseDue nowMs).1, s.2 ++ [.released (s.1.releaseDue nowMs).2])
  | .wakeDelayMs nowMs currentTimerMs =>
    ((s.1.wakeDelayMs nowMs currentTimerMs).1,
      s.2 ++ [.delay (s.1.wakeDelayMs nowMs currentTimerMs).2.toNat])
  | .empty => (s.1.checkEmpty.1, s.2 ++ [.empty s.1.checkEmpty.2])
  | .clear => (s.1.clear, s.2 ++ [.done])

/-- One operation on the agenda. -/
def agendaStep (s : Agenda × List Answer) : Op → Agenda × List Answer
  | .schedule key reason priority readyAtMs nowMs =>
    (s.1.schedule key reason priority readyAtMs nowMs, s.2 ++ [.done])
  | .releaseDue nowMs => (s.1.releaseDue nowMs, s.2 ++ [.released (s.1.due nowMs).card])
  | .wakeDelayMs nowMs currentTimerMs =>
    (s.1, s.2 ++ [.delay (s.1.wakeDelayMs nowMs currentTimerMs)])
  | .empty => (s.1, s.2 ++ [.empty (decide (s.1.entries = ∅))])
  | .clear => (s.1.clear, s.2 ++ [.done])

/-- The relation between the two machines: related states, equal answers. -/
def Simulates (s : Queue × List Answer) (t : Agenda × List Answer) : Prop :=
  Refines s.1 t.1 ∧ s.2 = t.2

/-- One operation keeps the relation. -/
theorem simulates_step (s : Queue × List Answer) (t : Agenda × List Answer) (op : Op)
    (h : Simulates s t) : Simulates (queueStep s op) (agendaStep t op) := by
  obtain ⟨href, hans⟩ := h
  cases op with
  | schedule key reason priority readyAtMs nowMs =>
    refine ⟨refines_schedule href key reason priority readyAtMs nowMs, ?_⟩
    rw [queueStep, agendaStep, hans]
  | releaseDue nowMs =>
    obtain ⟨hnext, hcount⟩ := refines_releaseDue href nowMs
    refine ⟨hnext, ?_⟩
    rw [queueStep, agendaStep, hans, hcount]
  | wakeDelayMs nowMs currentTimerMs =>
    obtain ⟨hnext, hdelay⟩ := refines_wakeDelayMs href nowMs currentTimerMs
    refine ⟨hnext, ?_⟩
    rw [queueStep, agendaStep, hans, hdelay]
  | empty =>
    obtain ⟨hnext, hanswer⟩ := refines_checkEmpty href
    refine ⟨hnext, ?_⟩
    rw [queueStep, agendaStep, hans, hanswer]
  | clear =>
    refine ⟨refines_clear href, ?_⟩
    rw [queueStep, agendaStep, hans]

/-- Over every sequence of operations the queue answers as the agenda does, its current
entries are the agenda's, and what lazy deletion leaves on top is the agenda's minimum;
the stored release time is the requested one clamped into `[now, now + MaxWaitMs]`. -/
theorem queue_refines_agenda (ops : List Op) :
    let q := run queueStep ({}, []) ops
    let m := run agendaStep ({}, []) ops
    q.2 = m.2 ∧
    (∀ entry, entry ∈ m.1.entries ↔
      entry ∈ q.1.pending.items ∧ q.1.isCurrent entry = true) ∧
    (q.1.discardSuperseded.pending.top? = none ↔ m.1.entries = ∅) ∧
    (∀ entry, q.1.discardSuperseded.pending.top? = some entry ↔ m.1.IsMinimum entry) ∧
    ∀ readyAtMs nowMs, nowMs.toNat + maxWaitMs.toNat < 2 ^ 64 →
      (Queue.clampReadyAtMs readyAtMs nowMs).toNat =
        min (max readyAtMs.toNat nowMs.toNat) (nowMs.toNat + maxWaitMs.toNat) := by
  intro q m
  have h : Simulates q m := run_simulation ⟨refines_init, rfl⟩ simulates_step ops
  refine ⟨h.2, h.1.mem_iff, top_eq_none_iff h.1, top_eq_some_iff h.1, ?_⟩
  exact toNat_clampReadyAtMs

end TrinityCore.Bots.SpellQueue
