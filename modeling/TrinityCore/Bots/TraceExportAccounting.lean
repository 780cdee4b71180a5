import Mathlib.Data.List.Nodup
import Mathlib.Data.PNat.Basic
import TrinityCore.Bots.TraceExportCursor

/-!
# Accounting of exported decision-trace entries

Recording and polling share one trace and one cursor. Over every interleaving, a
sequence up to the cursor was handed out once or reported missing once. The
invariant splits the retained trace at the cursor: whatever was erased from the
pending part was erased at its front, so the pending sequences stay consecutive up
to the last recorded one and a gap can only open right behind the cursor.
-/

namespace TrinityCore.Bots.WorldTrace

open List

open StateMachine

variable {β : Type}

/-- One step of a run: the recorder appends an entry or a reader polls. -/
inductive TraceEvent (β : Type) where
  | record (body : β)
  | poll (limit : ℕ+)

/-- A run's state: the shared trace and every report given out so far, in order. -/
structure ExportRun (β : Type) where
  state : ExportState β := {}
  reports : List (ExportReport β) := []

/-- Apply one event; a poll also files its report. -/
def traceStep (r : ExportRun β) : TraceEvent β → ExportRun β
  | .record body => { r with state := recordDecisionTrace r.state body }
  | .poll limit =>
    { state := (exportTrace r.state limit).1
      reports := r.reports ++ [(exportTrace r.state limit).2] }

/-- The cursor as both callers read it: zero until the first handout. -/
def ExportState.cursor (state : ExportState β) : Nat := state.traceExportCursor.getD 0

/-- Sequences handed out by the reports, in handout order. -/
def handedOut (reports : List (ExportReport β)) : List Nat :=
  reports.flatMap fun report => report.entries.map (·.sequence)

/-- The report announces that `sequence` is missing. -/
def ExportReport.declaresMissing (report : ExportReport β) (sequence : Nat) : Bool :=
  report.transition.hasDiscontinuity
    && decide (report.transition.missingSequenceStart ≤ sequence)
    && decide (sequence ≤ report.transition.missingSequenceEnd)

/-- How many reported ranges contain `sequence`. -/
def missingReports (reports : List (ExportReport β)) (sequence : Nat) : Nat :=
  reports.countP (·.declaresMissing sequence)

/-! ### The retained trace around the cursor -/

/-- The trace is an exported part up to the cursor and a pending part that counts
consecutively from `start` to `last`. -/
structure Retains (trace exported pending : List (TraceEntry β))
    (cursor start last : Nat) : Prop where
  split : trace = exported ++ pending
  exported_le : ∀ entry ∈ exported, entry.sequence ≤ cursor
  consecutive : pending.map (·.sequence) = List.range' start pending.length
  start_gt : cursor < start
  reaches_last : start + pending.length = last + 1

private theorem findIdx_cursor (low high : List Nat) (cursor : Nat)
    (hlow : ∀ n ∈ low, n ≤ cursor) (hhigh : ∀ n ∈ high, cursor < n) :
    (low ++ high).findIdx (fun n => decide (cursor < n)) = low.length := by
  induction low with
  | nil =>
    cases high with
    | nil => rfl
    | cons n high =>
      have hn : cursor < n := hhigh n (by simp)
      simp [findIdx_cons, hn]
  | cons n low ih =>
    have hn : ¬ cursor < n := Nat.not_lt.mpr (hlow n (by simp))
    have ht := ih (fun m hm => hlow m (by simp [hm]))
    simp [findIdx_cons, hn, ht]

variable {exported pending trace : List (TraceEntry β)} {last start : Nat}

section

variable {cursor : Nat} (h : Retains trace exported pending cursor start last)
include h

private theorem pending_gt : ∀ n ∈ pending.map (·.sequence), cursor < n := by
  intro n hn
  rw [h.consecutive, mem_range'_1] at hn
  exact lt_of_lt_of_le h.start_gt hn.1

private theorem findIdx_retained :
    (trace.map (·.sequence)).findIdx (fun n => decide (cursor < n)) = exported.length := by
  rw [h.split, map_append, findIdx_cursor _ _ cursor _ (pending_gt h), length_map]
  intro n hn
  obtain ⟨entry, he, rfl⟩ := mem_map.mp hn
  exact h.exported_le entry he

private theorem upperBound_retained : upperBound trace cursor = exported.length := by
  rw [← findIdx_retained h, findIdx_map]
  rfl

end

/-- Trimming the front keeps the last `ExportedTraceTail` exported entries. -/
theorem popExported_append (exported pending : List (TraceEntry β)) :
    popExported (exported ++ pending) exported.length =
      (exported.drop (exported.length - exportedTraceTail) ++ pending,
        min exported.length exportedTraceTail) := by
  induction exported with
  | nil => cases pending <;> simp [popExported]
  | cons entry exported ih =>
    rw [cons_append, popExported]
    by_cases h : (entry :: exported).length > exportedTraceTail
    · have hs : (entry :: exported).length - exportedTraceTail =
          (exported.length - exportedTraceTail) + 1 := by
        rw [length_cons] at h ⊢
        omega
      have hm : min exported.length exportedTraceTail =
          min (entry :: exported).length exportedTraceTail := by
        rw [length_cons] at h ⊢
        omega
      rw [if_pos h, hs, drop_succ_cons, length_cons, Nat.add_sub_cancel, ih, hm, length_cons]
    · have hz : (entry :: exported).length - exportedTraceTail = 0 := by omega
      rw [if_neg h, hz, drop_zero, Nat.min_eq_left (Nat.not_lt.mp h), cons_append]

/-- Trimming erases exported entries from the front and pending entries from the front of
the pending part, and nothing else. -/
theorem trimExportedTrace_retained {cursor : Nat}
    (h : Retains trace exported pending cursor start last) :
    trimExportedTrace trace cursor =
      exported.drop (exported.length - exportedTraceTail) ++
        pending.drop (pending.length - pendingTraceCapacity) := by
  have hpop := popExported_append exported pending
  rw [trimExportedTrace, upperBound_retained h, h.split, hpop]
  set tail := exported.drop (exported.length - exportedTraceTail) with htail
  have hlen : min exported.length exportedTraceTail = tail.length := by
    rw [htail, length_drop]
    omega
  simp only [hlen, length_append, Nat.add_sub_cancel_left]
  split
  · next hcap =>
    rw [take_left, Nat.add_sub_assoc hcap.le, drop_append,
      drop_of_length_le (by omega), nil_append, Nat.add_sub_cancel_left]
  · next hcap => rw [Nat.sub_eq_zero_of_le (Nat.not_lt.mp hcap), drop_zero]

/-- Dropping pending entries off the front keeps the split; the start moves up. -/
theorem Retains.drop {cursor : Nat} (h : Retains trace exported pending cursor start last)
    (i k : Nat) (hk : k ≤ pending.length) :
    Retains (exported.drop i ++ pending.drop k) (exported.drop i) (pending.drop k)
      cursor (start + k) last where
  split := rfl
  exported_le entry he := h.exported_le entry (mem_of_mem_drop he)
  consecutive := by
    rw [map_drop, h.consecutive, drop_range', length_drop, Nat.mul_one]
  start_gt := by have := h.start_gt; omega
  reaches_last := by
    have := h.reaches_last
    rw [length_drop]
    omega

/-- Recording appends the next sequence and may drop the oldest pending ones. -/
theorem recordDecisionTrace_retains (state : ExportState β) (body : β)
    (h : Retains state.decisionTrace exported pending state.cursor start state.traceSequence) :
    ∃ exported' pending' start',
      Retains (recordDecisionTrace state body).decisionTrace exported' pending'
        (recordDecisionTrace state body).cursor start'
        (recordDecisionTrace state body).traceSequence := by
  let entry : TraceEntry β := ⟨state.traceSequence + 1, body⟩
  have hnew : Retains (state.decisionTrace ++ [entry]) exported (pending ++ [entry])
      state.cursor start (state.traceSequence + 1) :=
    { split := by rw [h.split, append_assoc]
      exported_le := h.exported_le
      consecutive := by
        rw [map_append, h.consecutive, length_append, length_singleton,
          range'_concat, Nat.one_mul, h.reaches_last]
        rfl
      start_gt := h.start_gt
      reaches_last := by
        rw [length_append, length_singleton, ← Nat.add_assoc, h.reaches_last] }
  have hkept := hnew.drop (exported.length - exportedTraceTail)
    ((pending ++ [entry]).length - pendingTraceCapacity) (Nat.sub_le _ _)
  rw [← trimExportedTrace_retained hnew] at hkept
  exact ⟨_, _, _, hkept⟩

/-! ### One poll -/

/-- On consecutive sequences the counting loop takes a prefix and moves the cursor to its
last element; with an empty count and a positive limit it takes at least one. -/
theorem countEntries_range' (limit start n previous : Nat) (t : ExportCursorTransition)
    (hnext : t.entryCount ≠ 0 → start = previous + 1) :
    ∃ k ≤ n, countEntries limit (List.range' start n) previous t =
        { t with
          cursorAfter := if k = 0 then t.cursorAfter else start + k - 1
          entryCount := t.entryCount + k } ∧
      (t.entryCount = 0 → 0 < n → 0 < limit → 0 < k) := by
  induction n generalizing start previous t with
  | zero => exact ⟨0, le_rfl, by simp [countEntries], by omega⟩
  | succ n ih =>
    rw [range'_succ, countEntries]
    split
    · next hlimit =>
      split
      · next hstop => exact ⟨0, by omega, by simp, by omega⟩
      · next hgo =>
        obtain ⟨k, hk, heq, _⟩ := ih (start + 1) start
          { t with cursorAfter := start, entryCount := t.entryCount + 1 } (fun _ => rfl)
        refine ⟨k + 1, by omega, ?_, by omega⟩
        rw [heq]
        by_cases hz : k = 0
        · simp [hz]
        · simp [hz]
          omega
    · next hlimit => exact ⟨0, by omega, by simp, by omega⟩

/-- The transition of a poll with nothing pending: the cursor stays and no gap is told. -/
theorem buildExportCursorTransition_exported {cursor : Nat}
    (h : Retains trace exported [] cursor start last) (initialized : Bool) (limit : Nat) :
    let t := buildExportCursorTransition (trace.map (·.sequence)) cursor initialized limit
    t.entryCount = 0 ∧ t.hasDiscontinuity = false := by
  have hdrop : (trace.map (·.sequence)).drop exported.length = [] := by
    rw [h.split, append_nil]
    exact drop_of_length_le (by rw [length_map])
  simp [buildExportCursorTransition, findIdx_retained h, hdrop]

/-- The gap check leaves the counting fields alone and tells a gap exactly when the first
retained sequence is past the expected one. -/
theorem noteDiscontinuity_spec (expectedFirst firstRetained newest : Nat)
    (t : ExportCursorTransition) (ht : t.hasDiscontinuity = false) :
    let t' := noteDiscontinuity expectedFirst firstRetained newest t
    t'.firstEntryIndex = t.firstEntryIndex ∧ t'.entryCount = t.entryCount ∧
      t'.cursorBefore = t.cursorBefore ∧
      t'.hasDiscontinuity = decide (expectedFirst < firstRetained) ∧
      (expectedFirst < firstRetained →
        t'.missingSequenceStart = expectedFirst ∧ t'.missingSequenceEnd = firstRetained - 1) := by
  by_cases hgap : expectedFirst < firstRetained
  · simp [noteDiscontinuity, hgap]
  · simp [noteDiscontinuity, hgap, ht]

/-- What a poll with something pending answers: it starts at the first pending entry, takes
at least one and only pending ones, and tells a gap exactly when the first is not
`cursor + 1`. -/
structure PendingTransition (t : ExportCursorTransition)
    (exported pending cursor start : Nat) : Prop where
  firstEntryIndex : t.firstEntryIndex = exported
  entryCount_pos : 0 < t.entryCount
  entryCount_le : t.entryCount ≤ pending
  cursorBefore : t.cursorBefore = cursor
  cursorAfter : t.cursorAfter = start + t.entryCount - 1
  hasDiscontinuity : t.hasDiscontinuity = decide (cursor + 1 < start)
  missing : cursor + 1 < start →
    t.missingSequenceStart = cursor + 1 ∧ t.missingSequenceEnd = start - 1

/-- The transition of a poll with something pending. -/
theorem buildExportCursorTransition_pending {cursor : Nat}
    (h : Retains trace exported pending cursor start last) (hpending : 0 < pending.length)
    (initialized : Bool) (hcursor : initialized = false → cursor = 0) {limit : Nat}
    (hlimit : 0 < limit) :
    PendingTransition
      (buildExportCursorTransition (trace.map (·.sequence)) cursor initialized limit)
      exported.length pending.length cursor start := by
  have hexpected : (if initialized then cursor + 1 else 1) = cursor + 1 := by
    cases initialized with
    | true => rfl
    | false => simp [hcursor rfl]
  obtain ⟨n, hn⟩ : ∃ n, pending.length = n + 1 := ⟨pending.length - 1, by omega⟩
  have hdrop : (trace.map (·.sequence)).drop exported.length =
      start :: range' (start + 1) n := by
    rw [h.split, map_append, drop_append, length_map, Nat.sub_self,
      drop_zero, drop_of_length_le (by rw [length_map]), nil_append,
      h.consecutive, hn, range'_succ]
  simp only [buildExportCursorTransition, findIdx_retained h, hdrop, hexpected]
  rw [← range'_succ]
  set t := noteDiscontinuity (cursor + 1) start ((trace.map (·.sequence)).getLastD 0)
    { cursorBefore := cursor
      cursorAfter := cursor
      firstEntryIndex := exported.length
      oldestRetainedSequence := (trace.map (·.sequence)).headD 0
      newestRetainedSequence := (trace.map (·.sequence)).getLastD 0 } with ht
  obtain ⟨hfirst, hcount, hbefore, hgap, hmissing⟩ :=
    noteDiscontinuity_spec (cursor + 1) start ((trace.map (·.sequence)).getLastD 0)
      { cursorBefore := cursor
        cursorAfter := cursor
        firstEntryIndex := exported.length
        oldestRetainedSequence := (trace.map (·.sequence)).headD 0
        newestRetainedSequence := (trace.map (·.sequence)).getLastD 0 } rfl
  rw [← ht] at hfirst hcount hbefore hgap hmissing
  change t.entryCount = 0 at hcount
  obtain ⟨k, hk, heq, hpos⟩ := countEntries_range' limit start (n + 1) 0 t
    (fun hc => absurd hcount hc)
  have hk0 : 0 < k := hpos hcount (by omega) hlimit
  rw [heq]
  exact
    { firstEntryIndex := hfirst
      entryCount_pos := by simpa [hcount] using hk0
      entryCount_le := by simpa [hcount, hn] using hk
      cursorBefore := hbefore
      cursorAfter := by simp [hk0.ne', hcount]
      hasDiscontinuity := hgap
      missing := hmissing }

/-! ### The run invariant -/

/-- After a run: the retained trace splits at the cursor, an unused cursor is zero,
sequences were handed out in increasing order, and every sequence was handed out or
reported missing exactly once if it lies up to the cursor and not at all otherwise. -/
structure Accounted (r : ExportRun β) : Prop where
  retains : ∃ exported pending start,
    Retains r.state.decisionTrace exported pending r.state.cursor start r.state.traceSequence
  increasing : (handedOut r.reports).Pairwise (· < ·)
  handedOut_le : ∀ n ∈ handedOut r.reports, n ≤ r.state.cursor
  once : ∀ n, (handedOut r.reports).count n + missingReports r.reports n =
    if 1 ≤ n ∧ n ≤ r.state.cursor then 1 else 0

/-- Before the first event nothing was recorded, handed out or reported. -/
theorem accounted_init : Accounted ({} : ExportRun β) where
  retains := ⟨[], [], 1, by constructor <;> simp [ExportState.cursor]⟩
  increasing := List.Pairwise.nil
  handedOut_le := by simp [handedOut]
  once n := by
    have hz : ({} : ExportRun β).state.cursor = 0 := rfl
    have hn : ¬ (1 ≤ n ∧ n ≤ ({} : ExportRun β).state.cursor) := by omega
    rw [if_neg hn]
    rfl

/-- Recording leaves the cursor and the reports alone. -/
theorem accounted_record {r : ExportRun β} (h : Accounted r) (body : β) :
    Accounted (traceStep r (.record body)) := by
  obtain ⟨exported, pending, start, hr⟩ := h.retains
  exact
    { retains := recordDecisionTrace_retains r.state body hr
      increasing := h.increasing
      handedOut_le := h.handedOut_le
      once := h.once }

private theorem handedOut_concat (reports : List (ExportReport β)) (report : ExportReport β) :
    handedOut (reports ++ [report]) =
      handedOut reports ++ report.entries.map (·.sequence) := by
  simp [handedOut]

private theorem missingReports_concat (reports : List (ExportReport β))
    (report : ExportReport β) (n : Nat) :
    missingReports (reports ++ [report]) n =
      missingReports reports n + if report.declaresMissing n then 1 else 0 := by
  simp [missingReports, countP_append, countP_singleton]

private theorem count_range' (start k n : Nat) :
    (List.range' start k).count n = if start ≤ n ∧ n < start + k then 1 else 0 := by
  split
  · next h => exact count_eq_one_of_mem (nodup_range' 1) (mem_range'_1.mpr h)
  · next h => exact count_eq_zero.mpr (fun hm => h (mem_range'_1.mp hm))

/-- A poll with nothing pending changes neither cursor nor account. -/
theorem accounted_poll_exported {r : ExportRun β} (h : Accounted r) (limit : ℕ+)
    (hr : Retains r.state.decisionTrace exported [] r.state.cursor start r.state.traceSequence) :
    Accounted (traceStep r (.poll limit)) := by
  obtain ⟨hcount, hgap⟩ := buildExportCursorTransition_exported hr
    r.state.traceExportCursor.isSome limit
  have hstate : (exportTrace r.state limit).1 = r.state := by
    simp only [exportTrace]
    exact if_neg fun hc => hc.1 hcount
  have hentries : (exportTrace r.state limit).2.entries = [] := by
    have : (buildExportCursorTransition (r.state.decisionTrace.map (·.sequence))
      (r.state.traceExportCursor.getD 0) r.state.traceExportCursor.isSome limit).entryCount
        = 0 := hcount
    simp [exportTrace, this]
  have hmissing (n : Nat) : (exportTrace r.state limit).2.declaresMissing n = false := by
    have : (exportTrace r.state limit).2.transition.hasDiscontinuity = false := hgap
    simp [ExportReport.declaresMissing, this]
  have hhanded : handedOut (traceStep r (.poll limit)).reports = handedOut r.reports := by
    simp [traceStep, handedOut_concat, hentries]
  have hreported (n : Nat) :
      missingReports (traceStep r (.poll limit)).reports n = missingReports r.reports n := by
    simp [traceStep, missingReports_concat, hmissing]
  have hs : (traceStep r (.poll limit)).state = r.state := hstate
  exact
    { retains := by rw [hs]; exact h.retains
      increasing := by rw [hhanded]; exact h.increasing
      handedOut_le := by rw [hhanded, hs]; exact h.handedOut_le
      once := by
        intro n
        rw [hhanded, hreported, hs]
        exact h.once n }

/-- A poll with something pending accounts for everything up to its new cursor: first the
gap behind the old cursor, then the entries it hands out. -/
theorem accounted_poll_pending {r : ExportRun β} (h : Accounted r) (limit : ℕ+)
    (hr : Retains r.state.decisionTrace exported pending r.state.cursor start r.state.traceSequence)
    (hpending : 0 < pending.length) : Accounted (traceStep r (.poll limit)) := by
  have hcursor : r.state.traceExportCursor.isSome = false → r.state.cursor = 0 := by
    intro hn
    rw [ExportState.cursor, Option.isSome_eq_false_iff.mp hn |> Option.isNone_iff_eq_none.mp]
    rfl
  have ht := buildExportCursorTransition_pending hr hpending
    r.state.traceExportCursor.isSome hcursor limit.pos
  set t := buildExportCursorTransition (r.state.decisionTrace.map (·.sequence))
    r.state.cursor r.state.traceExportCursor.isSome limit with htdef
  obtain ⟨k, hk⟩ : ∃ k, k = t.entryCount := ⟨_, rfl⟩
  have hstart := hr.start_gt
  have hpos : 0 < k := hk ▸ ht.entryCount_pos
  have hle : k ≤ pending.length := hk ▸ ht.entryCount_le
  have hafter : t.cursorAfter = start + k - 1 := hk ▸ ht.cursorAfter
  have hmoved : t.entryCount ≠ 0 ∧ t.cursorAfter ≠ t.cursorBefore := by
    rw [ht.cursorBefore, hafter]
    omega
  have hstate : (traceStep r (.poll limit)).state =
      { r.state with traceExportCursor := some t.cursorAfter } := by
    change (if t.entryCount ≠ 0 ∧ t.cursorAfter ≠ t.cursorBefore then
      { r.state with traceExportCursor := some t.cursorAfter } else r.state) = _
    exact if_pos hmoved
  have hnew : (traceStep r (.poll limit)).state.cursor = start + k - 1 := by
    rw [hstate, ← hafter]
    rfl
  have hentries : (exportTrace r.state limit).2.entries = pending.take k := by
    change (r.state.decisionTrace.drop t.firstEntryIndex).take t.entryCount = _
    rw [← hk, ht.firstEntryIndex, hr.split, drop_append, Nat.sub_self, drop_zero,
      drop_of_length_le le_rfl, nil_append]
  have htaken : (pending.take k).map (·.sequence) = range' start k := by
    rw [map_take, hr.consecutive, take_range'_of_length_ge hle]
  have hhanded : handedOut (traceStep r (.poll limit)).reports =
      handedOut r.reports ++ range' start k := by
    change handedOut (r.reports ++ [(exportTrace r.state limit).2]) = _
    rw [handedOut_concat, hentries, htaken]
  have hreported (n : Nat) : missingReports (traceStep r (.poll limit)).reports n =
      missingReports r.reports n + if r.state.cursor < n ∧ n < start then 1 else 0 := by
    change missingReports (r.reports ++ [(exportTrace r.state limit).2]) n = _
    rw [missingReports_concat]
    congr 1
    refine if_congr ?_ rfl rfl
    change (t.hasDiscontinuity && decide (t.missingSequenceStart ≤ n)
      && decide (n ≤ t.missingSequenceEnd)) = true ↔ _
    rw [ht.hasDiscontinuity]
    by_cases hgap : r.state.cursor + 1 < start
    · obtain ⟨h1, h2⟩ := ht.missing hgap
      simp only [hgap, h1, h2, decide_true, Bool.true_and, Bool.and_eq_true, decide_eq_true_eq]
      omega
    · simp only [hgap, decide_false, Bool.false_and, Bool.false_eq_true, false_iff]
      omega
  exact
    { retains := by
        refine ⟨exported ++ pending.take k, pending.drop k, start + k, ?_⟩
        rw [hnew, hstate]
        exact
          { split := by rw [append_assoc, take_append_drop, hr.split]
            exported_le := by
              intro entry he
              rcases mem_append.mp he with he | he
              · have := hr.exported_le entry he
                omega
              · have hm : entry.sequence ∈ range' start k := by
                  rw [← htaken]
                  exact mem_map_of_mem he
                have := mem_range'_1.mp hm
                omega
            consecutive := (hr.drop 0 k hle).consecutive
            start_gt := by omega
            reaches_last := (hr.drop 0 k hle).reaches_last }
      increasing := by
        rw [hhanded, pairwise_append]
        refine ⟨h.increasing, pairwise_lt_range', ?_⟩
        intro a ha b hb
        have := h.handedOut_le a ha
        have := mem_range'_1.mp hb
        omega
      handedOut_le := by
        intro n hn
        rw [hnew]
        rw [hhanded, mem_append] at hn
        rcases hn with hn | hn
        · have := h.handedOut_le n hn
          omega
        · have := mem_range'_1.mp hn
          omega
      once := by
        intro n
        have := h.once n
        rw [hhanded, count_append, hreported, hnew, count_range']
        split_ifs at this ⊢ <;> omega }

/-- Every step keeps the account. -/
theorem accounted_step (r : ExportRun β) (e : TraceEvent β) (h : Accounted r) :
    Accounted (traceStep r e) := by
  cases e with
  | record body => exact accounted_record h body
  | poll limit =>
    obtain ⟨exported, pending, start, hr⟩ := h.retains
    cases pending with
    | nil => exact accounted_poll_exported h limit hr
    | cons entry pending => exact accounted_poll_pending h limit hr (by simp)

/-- Over every interleaving of recording and polling, handed-out sequences increase
strictly, and each sequence up to the final cursor was either handed out exactly once and
lies in no reported range, or was never handed out and lies in exactly one. -/
theorem export_accounts_for_every_sequence (events : List (TraceEvent β)) :
    let final := run traceStep ({} : ExportRun β) events
    (handedOut final.reports).Pairwise (· < ·) ∧
      ∀ n, 1 ≤ n → n ≤ final.state.cursor →
        ((handedOut final.reports).count n = 1 ∧ missingReports final.reports n = 0) ∨
          ((handedOut final.reports).count n = 0 ∧ missingReports final.reports n = 1) := by
  have h : Accounted (run traceStep ({} : ExportRun β) events) :=
    run_invariant accounted_init accounted_step events
  refine ⟨h.increasing, ?_⟩
  intro n h1 hn
  have := h.once n
  rw [if_pos ⟨h1, hn⟩] at this
  omega

end TrinityCore.Bots.WorldTrace
