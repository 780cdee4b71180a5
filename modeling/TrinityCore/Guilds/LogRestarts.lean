import Mathlib.Data.Nat.ModEq
import TrinityCore.Guilds.LogHolder

/-!
# Guild logs over restarts

Events take the ids of the ring in turn. A restart reads the rows by their time and id, which is
their order in the log, but for events of one second at the place where the ids begin again.
-/

namespace TrinityCore.Guilds

open GuildLog List

open StateMachine

variable {Event : Type} {s : GuildLog Event} {limit : Nat}

/-- The log of a guild in order: the ids of all events ever added, and what of them is kept. -/
structure LogIndex (limit : Nat) (s : GuildLog Event) : Prop where
  maxRecords : s.holder.maxRecords = limit
  pos : 0 < limit
  ids : ∀ i (hi : i < s.history.length), s.history[i].guid = i % limit
  times : s.history.Pairwise fun entry later => entry.timestamp ≤ later.timestamp
  log : s.holder.log = s.lastEvents
  rows : s.rows.Perm s.lastEvents
  next : s.holder.nextGUID = s.history.getLast?.map LogEntry.guid

theorem logIndex_newLog (hpos : 0 < limit) :
    LogIndex limit (newLog limit : GuildLog Event) :=
  have hnone : (newLog limit : GuildLog Event).lastEvents = [] := drop_nil
  ⟨rfl, hpos, nofun, List.Pairwise.nil, hnone.symm, hnone.symm ▸ List.Perm.nil, rfl⟩

/-! ### Ids -/

theorem mod_ne_of_lt {i j : Nat} (hlt : i < j) (hle : j < i + limit) :
    i % limit ≠ j % limit := by
  intro heq
  have hdvd : limit ∣ j - i := (Nat.modEq_iff_dvd' (Nat.le_of_lt hlt)).mp heq
  have hle' := Nat.le_of_dvd (by omega) hdvd
  omega

section

variable (h : LogIndex limit s)
include h

/-- The ids of the last events, by their place. -/
theorem LogIndex.getElem_lastEvents {i : Nat}
    (hi : i < s.lastEvents.length) :
    s.lastEvents[i].guid = (s.history.length - limit + i) % limit := by
  have hlength : s.lastEvents.length = s.history.length - (s.history.length - limit) := by
    unfold lastEvents
    rw [length_drop, h.maxRecords]
  have hget : s.lastEvents[i]? = s.history[s.history.length - limit + i]? := by
    unfold lastEvents
    rw [getElem?_drop, h.maxRecords]
  rw [getElem?_eq_getElem hi, getElem?_eq_getElem (by omega)] at hget
  rw [Option.some.inj hget]
  exact h.ids _ _

theorem LogIndex.length_lastEvents : s.lastEvents.length = min s.history.length limit := by
  unfold lastEvents
  rw [length_drop, h.maxRecords]
  omega

theorem LogIndex.pairwise_guid :
    s.lastEvents.Pairwise fun entry later => entry.guid ≠ later.guid := by
  rw [pairwise_iff_getElem]
  intro i j hi hj hlt
  rw [h.getElem_lastEvents hi, h.getElem_lastEvents hj]
  rw [h.length_lastEvents] at hj
  apply mod_ne_of_lt
  · omega
  · omega

theorem LogIndex.guid_lt {entry : LogEntry Event}
    (hmem : entry ∈ s.lastEvents) : entry.guid < limit := by
  obtain ⟨i, hi, rfl⟩ := mem_iff_getElem.mp hmem
  rw [h.getElem_lastEvents hi]
  exact Nat.mod_lt _ h.pos

/-- The id of the next event. -/
theorem LogIndex.getNextGUID : s.holder.getNextGUID = s.history.length % limit := by
  unfold LogHolder.getNextGUID
  rw [h.next, h.maxRecords]
  cases hlast : s.history.getLast? with
  | none =>
    rw [getLast?_eq_none_iff.mp hlast]
    exact (Nat.zero_mod _).symm
  | some last =>
    obtain ⟨hne, rfl⟩ := mem_getLast?_eq_getLast hlast
    have hpos := length_pos_of_ne_nil hne
    simp only [Option.map_some]
    rw [getLast_eq_getElem hne, h.ids, Nat.mod_add_mod, Nat.sub_add_cancel hpos]

end

/-- The events that stay when one more is added. -/
def GuildLog.kept (s : GuildLog Event) : List (LogEntry Event) :=
  if s.holder.maxRecords ≤ s.lastEvents.length then s.lastEvents.tail else s.lastEvents

/-- The next event takes the id of none but the oldest of a full log. -/
theorem LogIndex.guid_ne (h : LogIndex limit s) {i : Nat} (hi : i < s.lastEvents.length)
    (hlater : 0 < i ∨ s.lastEvents.length < limit) :
    s.lastEvents[i].guid ≠ s.history.length % limit := by
  rw [h.getElem_lastEvents hi]
  rw [h.length_lastEvents] at hi hlater
  apply mod_ne_of_lt
  · omega
  · omega

/-- The oldest of a full log has the id of the next event. -/
theorem LogIndex.guid_oldest (h : LogIndex limit s) {oldest : LogEntry Event}
    {rest : List (LogEntry Event)} (hlast : s.lastEvents = oldest :: rest)
    (hfull : limit ≤ s.lastEvents.length) : oldest.guid = s.history.length % limit := by
  have hget := @h.getElem_lastEvents _ _ _ 0 (by rw [hlast]; apply Nat.zero_lt_succ)
  simp only [hlast, getElem_cons_zero, Nat.add_zero] at hget
  rw [h.length_lastEvents] at hfull
  rw [hget, ← Nat.mod_eq_sub_mod (by omega)]

/-- The kept events are those whose id the next one does not take. -/
theorem LogIndex.filter_lastEvents (h : LogIndex limit s) :
    s.lastEvents.filter (fun entry => entry.guid ≠ s.history.length % limit) = s.kept := by
  unfold kept
  rw [h.maxRecords]
  split
  · next hfull =>
    cases hlast : s.lastEvents with
    | nil => rfl
    | cons oldest rest =>
      have holdest := h.guid_oldest hlast hfull
      rw [filter_cons_of_neg (by simp [holdest]), tail_cons, filter_eq_self]
      intro entry hmem
      obtain ⟨i, hi, rfl⟩ := mem_iff_getElem.mp hmem
      have hne := @h.guid_ne _ _ _ (i + 1) (by rw [hlast]; exact Nat.succ_lt_succ hi)
        (.inl (by omega))
      simp only [hlast, getElem_cons_succ] at hne
      simpa using hne
  · next hroom =>
    rw [filter_eq_self]
    intro entry hmem
    obtain ⟨i, hi, rfl⟩ := mem_iff_getElem.mp hmem
    simpa using h.guid_ne hi (Or.inr (by omega))

/-! ### One step -/

theorem LogIndex.add (h : LogIndex limit s) {timestamp : Nat} {event : Event}
    (htime : (LogStep.add timestamp event).InTime s) :
    LogIndex limit (s.step (.add timestamp event)) := by
  have hguid := h.getNextGUID
  have hmax := h.maxRecords
  have hlast : (s.step (.add timestamp event)).lastEvents =
      s.kept ++ [⟨s.holder.getNextGUID, timestamp, event⟩] := by
    have hlength := h.length_lastEvents
    unfold kept
    rw [hlength, hmax]
    unfold lastEvents step LogHolder.addEvent
    dsimp only
    rw [hmax, length_append, length_singleton, drop_append_of_le_length (by have := h.pos; omega)]
    split
    · rw [tail_drop]
      congr 2
      omega
    · congr 2
      omega
  refine ⟨hmax, h.pos, ?_, ?_, ?_, ?_, ?_⟩
  · intro i hi
    unfold step at hi ⊢
    dsimp only at hi ⊢
    rw [getElem_append]
    split
    · exact h.ids i _
    · next hnot =>
      rw [length_append, length_singleton] at hi
      have heq : i = s.history.length := by omega
      simp [heq, hguid]
  · unfold step
    dsimp only
    rw [pairwise_append]
    refine ⟨h.times, pairwise_singleton _ _, fun entry hmem later hlater => ?_⟩
    rw [mem_singleton.mp hlater]
    exact htime entry hmem
  · rw [hlast]
    unfold step LogHolder.addEvent kept
    dsimp only
    rw [h.log]
  · rw [hlast, ← h.filter_lastEvents]
    unfold step saveToDB
    dsimp only
    rw [hguid]
    exact (h.rows.filter _).append_right _
  · unfold step LogHolder.addEvent
    dsimp only
    rw [getLast?_concat]
    rfl

/-! ### Restarts -/

theorem loadsBefore.trans {a b c : LogEntry Event} (hbefore : loadsBefore a b)
    (hafter : loadsBefore b c) : loadsBefore a c := by
  unfold loadsBefore at *
  omega

theorem loadsBefore.total (a b : LogEntry Event) : loadsBefore a b ∨ loadsBefore b a := by
  unfold loadsBefore
  omega

/-- The rows in the order they are read in. -/
def loadOrder (limit : Nat) (rows : List (LogEntry Event)) : List (LogEntry Event) :=
  (rows.filter fun row => row.guid ≤ limit).mergeSort fun row row' => decide (loadsBefore row row')

theorem loadOrder_perm (h : LogIndex limit s) : (loadOrder limit s.rows).Perm s.lastEvents := by
  have hall : s.rows.filter (fun row => row.guid ≤ limit) = s.rows := by
    rw [filter_eq_self]
    intro row hmem
    exact decide_eq_true (Nat.le_of_lt (h.guid_lt (h.rows.mem_iff.mp hmem)))
  unfold loadOrder
  rw [hall]
  exact (mergeSort_perm _ _).trans h.rows

theorem loadOrder_pairwise (rows : List (LogEntry Event)) :
    (loadOrder limit rows).Pairwise loadsBefore := by
  have hsorted := @List.pairwise_mergeSort _ (fun row row' : LogEntry Event =>
    decide (loadsBefore row row')) ?_ ?_ (rows.filter fun row => row.guid ≤ limit)
  · exact hsorted.imp of_decide_eq_true
  · intro a b c hbefore hafter
    exact decide_eq_true ((of_decide_eq_true hbefore).trans (of_decide_eq_true hafter))
  · intro a b
    rw [Bool.or_eq_true, decide_eq_true_eq, decide_eq_true_eq]
    exact loadsBefore.total a b

/-- Rows that there is room for are all loaded, the first of them last in the log. -/
theorem foldl_loadEvent {rows : List (LogEntry Event)} {holder : LogHolder Event}
    (hroom : holder.log.length + rows.length ≤ holder.maxRecords) :
    rows.foldl (fun holder row => if holder.canInsert then holder.loadEvent row else holder) holder =
      { holder with
        log := rows.reverse ++ holder.log
        nextGUID := holder.nextGUID.or (rows.head?.map LogEntry.guid) } := by
  induction rows generalizing holder with
  | nil => simp
  | cons row rows ih =>
    rw [length_cons] at hroom
    have hcan : holder.canInsert = true := decide_eq_true (by omega)
    rw [foldl_cons, if_pos hcan, ih]
    · unfold LogHolder.loadEvent
      cases holder.nextGUID <;> simp
    · unfold LogHolder.loadEvent
      dsimp only [length_cons]
      omega

section

variable (h : LogIndex limit s)
include h

/-- What a restart leaves of a log. -/
theorem LogIndex.step_restart :
    s.step .restart = { s with
      holder := {
        log := (loadOrder limit s.rows).reverse
        maxRecords := limit
        nextGUID := (loadOrder limit s.rows).head?.map LogEntry.guid } } := by
  have hlength := (loadOrder_perm h).length_eq
  rw [h.length_lastEvents] at hlength
  have hfold := @foldl_loadEvent _ (loadOrder limit s.rows) { maxRecords := limit }
    (by simp only [length_nil]; omega)
  simp only [append_nil, Option.none_or] at hfold
  unfold step loadLog
  rw [h.maxRecords]
  exact congrArg (fun holder => { s with holder }) hfold

theorem LogIndex.lastEvents_restart : (s.step .restart).lastEvents = s.lastEvents := by
  rw [h.step_restart]
  unfold lastEvents
  rw [h.maxRecords]

theorem LogIndex.eq_of_guid_eq {entry entry' : LogEntry Event}
    (hmem : entry ∈ s.lastEvents) (hmem' : entry' ∈ s.lastEvents)
    (heq : entry.guid = entry'.guid) : entry = entry' :=
  inj_on_of_nodup_map (pairwise_map.mpr h.pairwise_guid) hmem hmem' heq

theorem LogIndex.times_lastEvents :
    s.lastEvents.Pairwise fun entry later => entry.timestamp ≤ later.timestamp :=
  h.times.sublist (drop_sublist _ _)

/-- Ordered events are read from the last to the first. -/
theorem LogIndex.loadOrder_eq (hordered : LogStep.Ordered s .restart) :
    loadOrder limit s.rows = s.lastEvents.reverse := by
  have hperm := loadOrder_perm h
  apply List.Perm.eq_of_pairwise _ (loadOrder_pairwise s.rows) _
    (hperm.trans (reverse_perm _).symm)
  · intro row row' hmem hmem' hbefore hafter
    apply h.eq_of_guid_eq (hperm.mem_iff.mp hmem) (mem_reverse.mp hmem')
    unfold loadsBefore at hbefore hafter
    omega
  · rw [pairwise_reverse]
    apply (h.times_lastEvents.and hordered).imp
    intro entry later hboth
    unfold loadsBefore
    have := hboth.2
    have := hboth.1
    omega

/-- A restart brings the last events back exactly when they are ordered. -/
theorem LogIndex.restart_log_iff :
    (s.step .restart).holder.log = s.lastEvents ↔ LogStep.Ordered s .restart := by
  rw [h.step_restart]
  dsimp only
  constructor
  · intro heq
    have hsorted := @loadOrder_pairwise _ limit s.rows
    rw [← reverse_reverse (loadOrder limit s.rows), heq, pairwise_reverse] at hsorted
    apply (hsorted.and h.pairwise_guid).imp
    intro entry later hboth htime
    have hne := hboth.2
    have hbefore := hboth.1
    unfold loadsBefore at hbefore
    omega
  · intro hordered
    rw [h.loadOrder_eq hordered, reverse_reverse]

theorem LogIndex.restart (hordered : LogStep.Ordered s .restart) :
    LogIndex limit (s.step .restart) := by
  have hlog := h.restart_log_iff.mpr hordered
  have hlast := h.lastEvents_restart
  rw [← hlast] at hlog
  refine ⟨?_, h.pos, h.ids, h.times, hlog, hlast.symm ▸ h.rows, ?_⟩
  · rw [h.step_restart]
  · rw [h.step_restart]
    dsimp only
    rw [h.loadOrder_eq hordered, head?_reverse]
    unfold lastEvents
    rw [getLast?_drop, h.maxRecords]
    have hpos := h.pos
    split
    · next hle =>
      have hnil : s.history = [] := eq_nil_of_length_eq_zero (by omega)
      rw [hnil]
      rfl
    · rfl

end

/-! ### Runs -/

theorem LogIndex.survives (h : LogIndex limit s) : s.Survives := by
  refine ⟨h.log, fun entry rest hlast hfull => ?_, fun hroom row hmem => ?_⟩
  · rw [h.getNextGUID, h.guid_oldest hlast]
    rw [hfull, h.maxRecords]
  · obtain ⟨i, hi, rfl⟩ := mem_iff_getElem.mp (h.rows.mem_iff.mp hmem)
    rw [h.getNextGUID]
    rw [h.maxRecords] at hroom
    exact h.guid_ne hi (.inr hroom)

theorem LogIndex.step (h : LogIndex limit s) {e : LogStep Event} (htime : e.InTime s)
    (hordered : e.Ordered s) : LogIndex limit (s.step e) := by
  cases e with
  | add timestamp event => exact h.add htime
  | restart => exact h.restart hordered

/-- A restart that is not ordered mixes the log up. -/
theorem LogIndex.not_survives (h : LogIndex limit s) {e : LogStep Event} (hnot : ¬e.Ordered s) :
    ¬(s.step e).Survives := by
  cases e with
  | add timestamp event => exact absurd trivial hnot
  | restart =>
    intro hsurvives
    apply hnot
    apply h.restart_log_iff.mp
    rw [hsurvives.log, h.lastEvents_restart]

/-- A log survives all restarts exactly when at each of them, of two of its events in one second,
the later one has the greater id. -/
theorem survives_iff_ordered (hpos : 0 < limit) {steps : List (LogStep Event)}
    (htimes : Admits GuildLog.step (fun s e => e.InTime s) (newLog limit) steps) :
    (∀ before, before <+: steps → (run GuildLog.step (newLog limit) before).Survives) ↔
      Admits GuildLog.step (fun s e => e.Ordered s) (newLog limit) steps :=
  run_prefixes_iff_of_invariant (logIndex_newLog hpos) (fun _ h => h.survives)
    (fun _ _ h => h.step) (fun _ _ h _ => h.not_survives) htimes

/-- Two events of one second, of which the later one begins the ring again. -/
def tiedSteps : List (LogStep Nat) := [.add 1 7, .add 2 8, .add 2 9, .restart]

theorem inTime_tiedSteps :
    Admits step (fun s e => LogStep.InTime s e) (newLog 2) tiedSteps := by
  refine ⟨nofun, ?_, ?_, trivial, trivial⟩
  · unfold LogStep.InTime
    decide
  · unfold LogStep.InTime
    decide

theorem survives_iff_ordered_tied :
    (∀ before, before <+: tiedSteps → (run GuildLog.step (newLog 2) before).Survives) ↔
      Admits GuildLog.step (fun s e => LogStep.Ordered s e) (newLog 2) tiedSteps :=
  survives_iff_ordered (by decide) inTime_tiedSteps

theorem survives_fails_tied :
    ¬∀ (limit : Nat) (steps : List (LogStep Nat)), 0 < limit →
      Admits GuildLog.step (fun s e => e.InTime s) (newLog limit) steps →
      ∀ before, before <+: steps → (run GuildLog.step (newLog limit) before).Survives := by
  intro hall
  have hsurvives := hall 2 tiedSteps (by decide) inTime_tiedSteps _ (prefix_refl _)
  have htimes := inTime_tiedSteps
  have hindex := (((logIndex_newLog (by decide : 0 < 2)).add htimes.1).add htimes.2.1).add
    htimes.2.2.1
  apply hindex.not_survives (e := .restart) _ hsurvives
  intro hordered
  have hlater := (pairwise_cons.mp hordered).1 ⟨0, 2, 9⟩ (by decide) rfl
  exact absurd hlater (by decide)

end TrinityCore.Guilds
