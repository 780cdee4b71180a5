import TrinityCore.Lib.QuietGroups
import TrinityCore.Magmaw.BaiterRotation

/-!
# Waves and switches of the baiter rotation

The rotation counts the groups of mechanic sightings on the boards observed since a mage was
latched, and changes the active mage only while no group is open. The invariant follows the
open group and its quiet through every board.
-/

namespace TrinityCore.Magmaw.BaiterRotation

open List

open Encounter StateMachine QuietGroups

/-! ### Boards -/

/-- The time of a board. -/
def observedAt (board : Blackboard) : Nat := board.observedAtMs.toNat

variable (boards : List Blackboard)

/-- The boards from the first one on which a dps Fire Mage can be latched. -/
def mageBoards : List Blackboard :=
  boards.dropWhile fun board => (observeRoster board).firstMage == 0

/-- Revisions increase and times do not decrease. -/
def Later (a b : Blackboard) : Prop := a.revision < b.revision ∧ a.observedAtMs ≤ b.observedAtMs

instance : DecidableRel Later := fun a b =>
  inferInstanceAs (Decidable (a.revision < b.revision ∧ a.observedAtMs ≤ b.observedAtMs))

/-- The clock stays clear of its end by `QuietBoundaryMs`. -/
def ClockInRange : Prop :=
  ∀ board ∈ boards, observedAt board + quietBoundaryMs.toNat < 2 ^ 64

instance (boards : List Blackboard) : Decidable (ClockInRange boards) :=
  inferInstanceAs (Decidable (∀ board ∈ boards, _))

/-- A group of sightings is open after these boards. -/
def waveLive : Bool :=
  live mechanicPresent observedAt quietBoundaryMs.toNat boards

/-- The number of groups of sightings on these boards. -/
def waveCount : Nat :=
  groupCount mechanicPresent observedAt quietBoundaryMs.toNat [] boards

/-- The waves a rotation has counted: the completed ones and the live one. -/
def wavesSeen (r : BaiterRotation) : Nat := r.completedWaves + if r.waveObserved then 1 else 0

variable {boards : List Blackboard} {r : BaiterRotation}

/-- One more board once a mage was latched. -/
theorem mageBoards_concat_of_ne (h : mageBoards boards ≠ []) (board : Blackboard) :
    mageBoards (boards ++ [board]) = mageBoards boards ++ [board] := by
  rw [mageBoards, dropWhile_append, if_neg]
  · rfl
  · rw [List.isEmpty_iff]
    exact h

/-- One more board before any mage was latched. -/
theorem mageBoards_concat_of_eq (h : mageBoards boards = [])
    (board : Blackboard) : mageBoards (boards ++ [board]) =
      if (observeRoster board).firstMage == 0 then [] else [board] := by
  change dropWhile _ boards = [] at h
  rw [mageBoards, dropWhile_append, h, isEmpty_nil, if_pos rfl, dropWhile_cons]
  rfl

/-! ### The duty invariant -/

/-- What holds of the mages and the wave index after every board. -/
structure Duty (r : BaiterRotation) : Prop where
  latched : r.activeMage = 0 ↔ r.primaryMage = 0
  mage : r.activeMage = r.primaryMage ∨ r.activeMage = r.alternateMage
  wave : r.wave = r.completedWaves + 1

/-- The fields that follow the open group. -/
structure WaveClock where
  completedWaves : Nat
  waveObserved : Bool
  quietTiming : Bool
  quietSinceMs : UInt64

/-- The wave clock of a rotation. -/
def waveClock (r : BaiterRotation) : WaveClock :=
  ⟨r.completedWaves, r.waveObserved, r.quietTiming, r.quietSinceMs⟩

/-- Between waves only the active mage and the diagnosis change. -/
theorem assignBetweenWaves_frame (r : BaiterRotation) (board : Blackboard) :
    (r.assignBetweenWaves board).waveClock = r.waveClock ∧
      (r.assignBetweenWaves board).wave = r.wave ∧
      (r.assignBetweenWaves board).primaryMage = r.primaryMage ∧
      (r.assignBetweenWaves board).alternateMage = r.alternateMage ∧
      (r.assignBetweenWaves board).observed = r.observed ∧
      (r.assignBetweenWaves board).lastRevision = r.lastRevision := by
  unfold assignBetweenWaves
  split
  · split
    · exact ⟨rfl, rfl, rfl, rfl, rfl, rfl⟩
    · simp only
      split
      · exact ⟨rfl, rfl, rfl, rfl, rfl, rfl⟩
      split
      · exact ⟨rfl, rfl, rfl, rfl, rfl, rfl⟩
      · exact ⟨rfl, rfl, rfl, rfl, rfl, rfl⟩
  · split
    · simp only
      split
      · exact ⟨rfl, rfl, rfl, rfl, rfl, rfl⟩
      · exact ⟨rfl, rfl, rfl, rfl, rfl, rfl⟩
    · exact ⟨rfl, rfl, rfl, rfl, rfl, rfl⟩

/-- Between waves the active mage stays, or becomes the other one on a board without
deferral. -/
theorem assignBetweenWaves_activeMage (r : BaiterRotation) (board : Blackboard) :
    (r.assignBetweenWaves board).activeMage = r.activeMage ∨
      hookDutyDeferral board = none ∧ r.otherMage r.activeMage ≠ 0 ∧
        (r.assignBetweenWaves board).activeMage = r.otherMage r.activeMage := by
  unfold assignBetweenWaves
  split
  · split
    · exact .inl rfl
    · next hdeferral =>
      simp only
      split
      · exact .inl rfl
      next hother =>
      split
      · exact .inl rfl
      · exact .inr ⟨hdeferral, fun heq => hother (beq_iff_eq.mpr heq), rfl⟩
  · split
    · next hdeferral =>
      simp only
      split
      · next hother =>
        rw [Bool.and_eq_true, Option.isNone_iff_eq_none] at hdeferral
        rw [Bool.and_eq_true, bne_iff_ne] at hother
        exact .inr ⟨hdeferral.1, hother.1, rfl⟩
      · exact .inl rfl
    · exact .inl rfl

/-- The other mage of a latched one is latched, or there is none. -/
theorem otherMage_latched (r : BaiterRotation) (mage : ObjectGuid)
    (h : r.otherMage mage ≠ 0) :
    r.otherMage mage = r.primaryMage ∨ r.otherMage mage = r.alternateMage := by
  unfold otherMage at h ⊢
  split
  · exact .inr rfl
  split
  · exact .inl rfl
  · next hprimary halternate =>
    rw [if_neg hprimary, if_neg halternate] at h
    exact absurd rfl h

/-- What an advance from `r` over `board` to `s` has to keep: the mages' invariant, and no
switch but on a board without mechanic and deferral that leaves no wave live. -/
structure KeepsDuty (r : BaiterRotation) (board : Blackboard) (s : BaiterRotation) : Prop where
  duty : Duty s
  active : s.activeMage ≠ 0
  switched : s.activeMage = r.activeMage ∨
    mechanicPresent board = false ∧ hookDutyDeferral board = none ∧ s.waveObserved = false

/-- The end of `Observe`, reached on a board without mechanic and with no live wave. -/
theorem assignBetweenWaves_duty {s : BaiterRotation} {board : Blackboard} (h : Duty s)
    (hactive : s.activeMage ≠ 0) (hmage : s.activeMage = r.activeMage)
    (hwave : s.waveObserved = false) (hmechanic : mechanicPresent board = false) :
    KeepsDuty r board (s.assignBetweenWaves board) := by
  obtain ⟨hclock, hindex, hprimary, halternate, -, -⟩ := assignBetweenWaves_frame s board
  have hcompleted := congrArg WaveClock.completedWaves hclock
  have hobserved := congrArg WaveClock.waveObserved hclock
  change (s.assignBetweenWaves board).completedWaves = s.completedWaves at hcompleted
  change (s.assignBetweenWaves board).waveObserved = s.waveObserved at hobserved
  have hlatched : s.primaryMage ≠ 0 := fun heq => hactive (h.latched.mpr heq)
  rcases assignBetweenWaves_activeMage s board with hsame | ⟨hnone, hother, hswitch⟩
  · refine ⟨⟨?_, ?_, ?_⟩, hsame ▸ hactive, .inl (hsame.trans hmage)⟩
    · rw [hsame, hprimary]
      exact h.latched
    · rw [hsame, hprimary, halternate]
      exact h.mage
    · rw [hindex, hcompleted]
      exact h.wave
  · refine ⟨⟨?_, ?_, ?_⟩, hswitch ▸ hother, .inr ⟨hmechanic, hnone, hobserved.trans hwave⟩⟩
    · rw [hswitch, hprimary]
      exact ⟨fun heq => absurd heq hother, fun heq => absurd heq hlatched⟩
    · rw [hswitch, hprimary, halternate]
      exact otherMage_latched s s.activeMage hother
    · rw [hindex, hcompleted]
      exact h.wave

/-- Timing the quiet touches neither the mages nor the wave index. -/
theorem timeQuiet_duty (h : Duty r) (board : Blackboard) :
    Duty (r.timeQuiet board) ∧ (r.timeQuiet board).activeMage = r.activeMage := by
  unfold timeQuiet
  split
  · exact ⟨h, rfl⟩
  · exact ⟨⟨h.latched, h.mage, h.wave⟩, rfl⟩

/-- What one board does once a mage is active. -/
theorem advance_duty (r : BaiterRotation) (board : Blackboard) (h : Duty r)
    (hactive : r.activeMage ≠ 0) : KeepsDuty r board (r.advance board) := by
  unfold advance
  split
  · unfold sightMechanic
    simp only
    split
    · exact ⟨⟨h.latched, h.mage, h.wave⟩, hactive, .inl rfl⟩
    · exact ⟨⟨h.latched, h.mage, h.wave⟩, hactive, .inl rfl⟩
  next hmechanic =>
  have hmechanic := eq_false_of_ne_true hmechanic
  split
  · obtain ⟨hduty, hmage⟩ := timeQuiet_duty h board
    simp only
    split
    · exact ⟨hduty, hmage ▸ hactive, .inl hmage⟩
    · have hcompleted : Duty (r.timeQuiet board).completeWave :=
        ⟨hduty.latched, hduty.mage, congrArg (· + 1) hduty.wave⟩
      apply assignBetweenWaves_duty hcompleted _ hmage rfl hmechanic
      exact hmage ▸ hactive
  · next hwave =>
    exact assignBetweenWaves_duty h hactive rfl (eq_false_of_ne_true hwave) hmechanic

/-! ### The wave clock -/

/-- The wave clock agrees with the group that is open after `boards`. -/
structure Follows (clock : WaveClock) (boards : List Blackboard) : Prop where
  observed : clock.waveObserved = waveLive boards
  counted : clock.completedWaves + (if clock.waveObserved then 1 else 0) = waveCount boards
  quiet : clock.waveObserved = true → quietSince mechanicPresent observedAt boards =
    if clock.quietTiming then some clock.quietSinceMs.toNat else none

/-- One board takes the clock along, as long as time does not run back or overflow. -/
theorem advance_follows (r : BaiterRotation) (board : Blackboard) (boards : List Blackboard)
    (h : Follows r.waveClock boards) (htime : ∀ b ∈ boards, observedAt b ≤ observedAt board)
    (hrange : observedAt board + quietBoundaryMs.toNat < 2 ^ 64) :
    Follows (r.advance board).waveClock (boards ++ [board]) := by
  obtain ⟨hobserved, hcounted, hquiet⟩ := h
  change r.waveObserved = _ at hobserved
  change r.completedWaves + (if r.waveObserved then 1 else 0) = _ at hcounted
  change r.waveObserved = true → _ = if r.quietTiming then some r.quietSinceMs.toNat else none
    at hquiet
  unfold advance
  split
  · next hmechanic =>
    have hclock : (r.sightMechanic board).waveClock =
        ⟨r.completedWaves, true, false, r.quietSinceMs⟩ := by
      unfold sightMechanic
      simp only
      split
      · rfl
      · rfl
    rw [hclock]
    refine ⟨(live_concat_sighting hmechanic).symm, ?_, fun _ =>
      quietSince_concat_sighting hmechanic⟩
    change r.completedWaves + 1 = _
    rw [waveCount, groupCount_concat, nil_append, opens, hmechanic, ← waveLive, ← waveCount,
      ← hobserved, ← hcounted]
    cases r.waveObserved with
    | false => rfl
    | true => rfl
  next hmechanic =>
  have hmechanic := eq_false_of_ne_true hmechanic
  have hcount : waveCount (boards ++ [board]) = waveCount boards := by
    rw [waveCount, groupCount_concat, opens, hmechanic]
    rfl
  split
  · next hwave =>
    -- the quiet of a live wave: its start is the clock's, or this board
    have hlive : waveLive (boards ++ [board]) = decide (observedAt board <
        (quietSince mechanicPresent observedAt boards).getD (observedAt board) +
          quietBoundaryMs.toNat) := by
      rw [waveLive, live_concat_quiet hmechanic,
        any_of_live (hobserved.symm.trans hwave), Bool.true_and]
    have htimed : (r.timeQuiet board).waveClock =
        ⟨r.completedWaves, true, true, (r.timeQuiet board).quietSinceMs⟩ ∧
        (quietSince mechanicPresent observedAt boards).getD (observedAt board) =
          (r.timeQuiet board).quietSinceMs.toNat := by
      rw [hquiet hwave]
      unfold timeQuiet
      split
      · next hquietTiming =>
        refine ⟨?_, by simp⟩
        rw [waveClock, hwave, hquietTiming]
      · next hquietTiming =>
        refine ⟨?_, by simp [observedAt]⟩
        rw [waveClock, hwave]
    obtain ⟨hclock, hsince⟩ := htimed
    rw [hsince] at hlive
    have hsinceLe : (r.timeQuiet board).quietSinceMs.toNat ≤ observedAt board := by
      rw [← hsince]
      cases hq : quietSince mechanicPresent observedAt boards with
      | none => exact le_rfl
      | some since =>
        obtain ⟨first, hfirst, rfl⟩ := Option.map_eq_some_iff.mp hq
        exact htime first ((rtakeWhile_suffix _ _).subset (mem_of_head? hfirst))
    have hadd : ((r.timeQuiet board).quietSinceMs + quietBoundaryMs).toNat =
        (r.timeQuiet board).quietSinceMs.toNat + quietBoundaryMs.toNat := by
      rw [UInt64.toNat_add, Nat.mod_eq_of_lt]
      omega
    rw [hwave, if_pos rfl] at hcounted
    simp only
    split
    · next hlt =>
      rw [UInt64.lt_iff_toNat_lt, hadd] at hlt
      rw [hclock]
      refine ⟨?_, hcounted.trans hcount.symm, fun _ => ?_⟩
      · rw [hlive]
        exact (decide_eq_true hlt).symm
      · rw [quietSince_concat_quiet hmechanic, hsince]
        rfl
    · next hge =>
      rw [UInt64.lt_iff_toNat_lt, hadd] at hge
      rw [(assignBetweenWaves_frame _ board).1]
      refine ⟨?_, ?_, nofun⟩
      · rw [hlive]
        exact (decide_eq_false hge).symm
      · have hcompleted := congrArg WaveClock.completedWaves hclock
        change (r.timeQuiet board).completedWaves = r.completedWaves at hcompleted
        change (r.timeQuiet board).completedWaves + 1 + 0 = _
        rw [hcompleted, hcount, ← hcounted]
  · next hwave =>
    have hwave := eq_false_of_ne_true hwave
    rw [hwave] at hobserved
    rw [(assignBetweenWaves_frame r board).1]
    refine ⟨?_, hcounted.trans hcount.symm, fun hnot => absurd hnot (by
      change r.waveObserved ≠ true
      simp [hwave])⟩
    change r.waveObserved = _
    rw [hwave]
    exact (live_concat_quiet_of_closed hobserved.symm hmechanic htime).symm

/-! ### Runs -/

/-- Latching the Hunter changes nothing else. -/
theorem latchHunter_eq (r : BaiterRotation) (roster : Roster) :
    ∃ hunter, r.latchHunter roster = { r with hunter := hunter } := by
  unfold latchHunter
  split
  · exact ⟨roster.hunter, rfl⟩
  · exact ⟨r.hunter, rfl⟩

/-- Noting a board keeps everything but the latched roster. -/
theorem noteBoard_frame (r : BaiterRotation) (board : Blackboard) :
    (r.noteBoard board).waveClock = r.waveClock ∧ (r.noteBoard board).wave = r.wave ∧
      (r.noteBoard board).activeMage = r.activeMage ∧
      (r.noteBoard board).observed = true ∧
      (r.noteBoard board).lastRevision = board.revision := by
  unfold noteBoard latchRoster
  simp only
  obtain ⟨hunter, heq⟩ := latchHunter_eq (latchMages { r with
    observed := true, lastRevision := board.revision,
    lastObservedAtMs := board.observedAtMs } (observeRoster board)) (observeRoster board)
  rw [heq, latchMages]
  split
  · exact ⟨rfl, rfl, rfl, rfl, rfl⟩
  split
  · exact ⟨rfl, rfl, rfl, rfl, rfl⟩
  · exact ⟨rfl, rfl, rfl, rfl, rfl⟩

/-- The primary mage is latched once; the alternate is filled in while it is missing. -/
theorem noteBoard_mages (r : BaiterRotation) (board : Blackboard) :
    (r.noteBoard board).primaryMage =
        (if r.primaryMage = 0 then (observeRoster board).firstMage else r.primaryMage) ∧
      (r.primaryMage ≠ 0 → r.alternateMage ≠ 0 →
        (r.noteBoard board).alternateMage = r.alternateMage) := by
  unfold noteBoard latchRoster
  simp only
  obtain ⟨hunter, heq⟩ := latchHunter_eq (latchMages { r with
    observed := true, lastRevision := board.revision,
    lastObservedAtMs := board.observedAtMs } (observeRoster board)) (observeRoster board)
  rw [heq, latchMages]
  simp only [beq_iff_eq]
  by_cases hprimary : r.primaryMage = 0
  · rw [if_pos hprimary, if_pos hprimary]
    exact ⟨rfl, fun hne => absurd hprimary hne⟩
  · rw [if_neg hprimary, if_neg hprimary]
    by_cases halternate : r.alternateMage = 0
    · rw [if_pos halternate]
      exact ⟨rfl, fun _ hne => absurd halternate hne⟩
    · rw [if_neg halternate]
      exact ⟨rfl, fun _ _ => rfl⟩

/-- The clock of a rotation noted down by `advance` keeps the last board's revision. -/
theorem advance_noted (r : BaiterRotation) (board : Blackboard) :
    (r.advance board).observed = r.observed ∧
      (r.advance board).lastRevision = r.lastRevision := by
  have hassign (s : BaiterRotation) := assignBetweenWaves_frame s board
  unfold advance
  split
  · unfold sightMechanic
    simp only
    split
    · exact ⟨rfl, rfl⟩
    · exact ⟨rfl, rfl⟩
  split
  · have htimed : (r.timeQuiet board).observed = r.observed ∧
        (r.timeQuiet board).lastRevision = r.lastRevision := by
      unfold timeQuiet
      split
      · exact ⟨rfl, rfl⟩
      · exact ⟨rfl, rfl⟩
    simp only
    split
    · exact htimed
    · obtain ⟨-, -, -, -, hobserved, hrevision⟩ := hassign (r.timeQuiet board).completeWave
      exact ⟨hobserved.trans htimed.1, hrevision.trans htimed.2⟩
  · obtain ⟨-, -, -, -, hobserved, hrevision⟩ := hassign r
    exact ⟨hobserved, hrevision⟩

/-- The state of a rotation after `boards`. -/
structure Tracks (r : BaiterRotation) (boards : List Blackboard) : Prop where
  noted : r.observed = true → ∃ last ∈ boards, r.lastRevision = last.revision
  started : mageBoards boards = [] ↔ r.activeMage = 0
  duty : Duty r
  clock : Follows r.waveClock (mageBoards boards)

/-- A rotation starts in its first wave, without a mage. -/
theorem tracks_reset (scopeKey : String) : Tracks (reset scopeKey) [] where
  noted h := nomatch h
  started := ⟨fun _ => rfl, fun _ => rfl⟩
  duty := ⟨Iff.rfl, .inl rfl, rfl⟩
  clock := ⟨rfl, rfl, nofun⟩

/-- With the mage already active, noting a board keeps the mages' invariant. -/
theorem noteBoard_duty (h : Duty r) (hactive : r.activeMage ≠ 0) (board : Blackboard) :
    Duty (r.noteBoard board) := by
  obtain ⟨hclock, hindex, hmage, -, -⟩ := noteBoard_frame r board
  obtain ⟨hprimary, halternate⟩ := noteBoard_mages r board
  have hlatched : r.primaryMage ≠ 0 := fun heq => hactive (h.latched.mpr heq)
  rw [if_neg hlatched] at hprimary
  refine ⟨?_, ?_, ?_⟩
  · rw [hmage, hprimary]
    exact h.latched
  · rw [hmage, hprimary]
    rcases h.mage with hfirst | hsecond
    · exact .inl hfirst
    · rw [halternate hlatched (hsecond ▸ hactive)]
      exact .inr hsecond
  · have hcompleted := congrArg WaveClock.completedWaves hclock
    change (r.noteBoard board).completedWaves = r.completedWaves at hcompleted
    rw [hindex, hcompleted]
    exact h.wave

/-- One board newer than all before. A switch needs a board without mechanic and deferral
after which no group is open. -/
theorem tracks_step (board : Blackboard) (h : Tracks r boards)
    (hlater : ∀ b ∈ boards, Later b board)
    (hrange : observedAt board + quietBoundaryMs.toNat < 2 ^ 64) :
    Tracks (r.step board) (boards ++ [board]) ∧
      (r.activeMage ≠ 0 → (r.step board).activeMage ≠ r.activeMage →
        mechanicPresent board = false ∧ hookDutyDeferral board = none ∧
          waveLive (mageBoards (boards ++ [board])) = false) := by
  obtain ⟨hclock, -, hmage, hobserved, hrevision⟩ := noteBoard_frame r board
  have hnew : (r.observed && decide (board.revision ≤ r.lastRevision)) = false := by
    rw [Bool.and_eq_false_iff]
    by_cases hseen : r.observed = true
    · obtain ⟨last, hlast, heq⟩ := h.noted hseen
      have hlt := (hlater last hlast).1
      right
      rw [heq, decide_eq_false_iff_not, UInt64.not_le]
      exact hlt
    · exact .inl (eq_false_of_ne_true hseen)
  have hstep : r.step board =
      if (r.noteBoard board).activeMage == 0 then
        if (r.noteBoard board).primaryMage == 0 then r.noteBoard board
        else (({ r.noteBoard board with
          activeMage := (r.noteBoard board).primaryMage }).record board .initial).advance board
      else (r.noteBoard board).advance board := by
    rw [step, observe, hnew, if_neg Bool.false_ne_true]
    simp only
    split
    · split
      · rfl
      · rfl
    · rfl
  have hlast : board ∈ boards ++ [board] := mem_concat_self
  rw [hstep, hmage]
  by_cases hactive : r.activeMage = 0
  · have hnone := h.started.mpr hactive
    have hprimary : (r.noteBoard board).primaryMage = (observeRoster board).firstMage := by
      rw [(noteBoard_mages r board).1, if_pos (h.duty.latched.mp hactive)]
    rw [mageBoards_concat_of_eq hnone, hprimary, if_pos (beq_iff_eq.mpr hactive)]
    refine ⟨?_, fun hne => absurd hactive hne⟩
    have hfollows := h.clock
    rw [hnone, ← hclock] at hfollows
    have hwave : (r.noteBoard board).wave = (r.noteBoard board).completedWaves + 1 := by
      have hcompleted := congrArg WaveClock.completedWaves hclock
      change (r.noteBoard board).completedWaves = r.completedWaves at hcompleted
      rw [(noteBoard_frame r board).2.1, hcompleted]
      exact h.duty.wave
    split
    · next hno =>
      -- still no mage to latch
      rw [beq_iff_eq] at hno
      have hmages := mageBoards_concat_of_eq hnone board
      rw [if_pos (beq_iff_eq.mpr hno)] at hmages
      exact
        { noted := fun _ => ⟨board, hlast, hrevision⟩
          started := by
            rw [hmages, hmage]
            exact iff_of_true rfl hactive
          duty := by
            refine ⟨?_, .inl ?_, hwave⟩
            · rw [hmage, hprimary]
              exact iff_of_true hactive hno
            · rw [hmage, hprimary, hactive, hno]
          clock := by
            rw [hmages]
            exact hfollows }
    · next hno =>
      rw [beq_iff_eq] at hno
      have hmages := mageBoards_concat_of_eq hnone board
      rw [if_neg (mt beq_iff_eq.mp hno)] at hmages
      let s := ({ r.noteBoard board with
        activeMage := (observeRoster board).firstMage }).record board .initial
      have hduty : Duty s := by
        refine ⟨?_, .inl ?_, hwave⟩
        · change (observeRoster board).firstMage = 0 ↔ (r.noteBoard board).primaryMage = 0
          rw [hprimary]
        · change (observeRoster board).firstMage = (r.noteBoard board).primaryMage
          rw [hprimary]
      have hkeeps := advance_duty s board hduty hno
      have hadvance := advance_follows s board [] hfollows (by simp) hrange
      exact
        { noted := fun _ => ⟨board, hlast, ((advance_noted s board).2).trans hrevision⟩
          started := by
            rw [hmages]
            exact iff_of_false (cons_ne_nil _ _) hkeeps.active
          duty := hkeeps.duty
          clock := by
            rw [hmages]
            exact hadvance }
  · have hsome : mageBoards boards ≠ [] := fun heq => hactive (h.started.mp heq)
    have hmages := mageBoards_concat_of_ne hsome board
    have hmem : ∀ b ∈ mageBoards boards, b ∈ boards :=
      fun b hb => (dropWhile_sublist _).subset hb
    rw [if_neg (mt beq_iff_eq.mp hactive), hmages]
    have hkeeps := advance_duty (r.noteBoard board) board (noteBoard_duty h.duty hactive board)
      (by rwa [hmage])
    have hfollows := advance_follows (r.noteBoard board) board (mageBoards boards)
      (by rw [hclock]; exact h.clock)
      (fun b hb => UInt64.le_iff_toNat_le.mp (hlater b (hmem b hb)).2) hrange
    refine ⟨?_, fun _ hswitch => ?_⟩
    · exact
        { noted := fun _ =>
            ⟨board, hlast, (advance_noted (r.noteBoard board) board).2.trans hrevision⟩
          started := by
            rw [hmages]
            exact iff_of_false (append_ne_nil_of_right_ne_nil _ (cons_ne_nil _ _))
              hkeeps.active
          duty := hkeeps.duty
          clock := hmages ▸ hfollows }
    · rw [← hmage] at hswitch
      obtain ⟨hmechanic, hdeferral, hwave⟩ := hkeeps.switched.resolve_left hswitch
      exact ⟨hmechanic, hdeferral, hfollows.observed.symm.trans hwave⟩

/-- The rotation of a scope after `boards`. -/
def rotation (scopeKey : String) (boards : List Blackboard) : BaiterRotation :=
  run step (reset scopeKey) boards

/-- Every sequence of newer and newer boards is tracked. -/
theorem tracks (scopeKey : String) (boards : List Blackboard) (hlater : boards.Pairwise Later)
    (hrange : ClockInRange boards) : Tracks (rotation scopeKey boards) boards := by
  induction boards using reverseRecOn with
  | nil => exact tracks_reset scopeKey
  | append_singleton boards board ih =>
    rw [pairwise_append] at hlater
    have hbefore := ih hlater.1 fun b hb => hrange b (mem_append_left _ hb)
    rw [rotation, run_concat]
    exact (tracks_step board hbefore (fun b hb => hlater.2.2 b hb board (mem_singleton_self _))
      (hrange board mem_concat_self)).1

/-- The active mage changes, once set, only on a board without mechanic and hook duty that is
at least `QuietBoundaryMs` after every sighting of the boards `select` keeps. -/
def SwitchesWhenQuiet (select : List Blackboard → List Blackboard) (scopeKey : String)
    (boards : List Blackboard) : Prop :=
  ∀ before board, before ++ [board] <+: boards →
    (rotation scopeKey before).activeMage ≠ 0 →
    (rotation scopeKey (before ++ [board])).activeMage ≠ (rotation scopeKey before).activeMage →
    mechanicPresent board = false ∧ hookDutyDeferral board = none ∧
      ∀ earlier ∈ select before, mechanicPresent earlier = true →
        observedAt earlier + quietBoundaryMs.toNat ≤ observedAt board

/-- One wave is counted for each group of sightings on the boards `select` keeps. -/
def CountsWaves (select : List Blackboard → List Blackboard) (scopeKey : String)
    (boards : List Blackboard) : Prop :=
  wavesSeen (rotation scopeKey boards) = waveCount (select boards)

/-- Over every sequence of boards with increasing revisions and times that do not decrease,
the active mage, a latched one, changes only on a board without mechanic and hook duty,
`QuietBoundaryMs` or more after every sighting since a mage was latched; the wave index is
one more than the completed waves; and one wave is counted for each group of sightings since
a mage was latched. -/
theorem rotation_duty (scopeKey : String) (boards : List Blackboard)
    (hlater : boards.Pairwise Later) (hrange : ClockInRange boards) :
    SwitchesWhenQuiet mageBoards scopeKey boards ∧
      ((rotation scopeKey boards).activeMage = (rotation scopeKey boards).primaryMage ∨
        (rotation scopeKey boards).activeMage = (rotation scopeKey boards).alternateMage) ∧
      (rotation scopeKey boards).wave = (rotation scopeKey boards).completedWaves + 1 ∧
      CountsWaves mageBoards scopeKey boards := by
  have h := tracks scopeKey boards hlater hrange
  refine ⟨?_, h.duty.mage, h.duty.wave, h.clock.counted⟩
  intro before board hpre hactive hswitch
  have hlater' := hlater.sublist hpre.sublist
  have hrange' : ClockInRange (before ++ [board]) := fun b hb => hrange b (hpre.subset hb)
  have hsplit := pairwise_append.mp hlater'
  have hbefore := tracks scopeKey before hsplit.1
    fun b hb => hrange' b (mem_append_left _ hb)
  rw [rotation, run_concat, ← rotation] at hswitch
  obtain ⟨hmechanic, hdeferral, hclosed⟩ := (tracks_step board hbefore
    (fun b hb => hsplit.2.2 b hb board (mem_singleton_self _))
    (hrange' board mem_concat_self)).2 hactive hswitch
  refine ⟨hmechanic, hdeferral, fun earlier hearlier hsighting => ?_⟩
  have hsome : mageBoards before ≠ [] := fun heq => hactive (hbefore.started.mp heq)
  rw [mageBoards_concat_of_ne hsome] at hclosed
  have hsorted : (mageBoards before ++ [board]).Pairwise fun a b =>
      observedAt a ≤ observedAt b := by
    apply (hlater'.sublist ((dropWhile_sublist _).append_right [board])).imp
    intro a b hab
    exact UInt64.le_iff_toNat_le.mp hab.2
  apply sighting_gap_le hsorted hclosed (mem_append_left _ hearlier) hsighting
  exact getLast?_concat

/-- A dps Fire Mage on the roster. -/
private def fireMage (guid : ObjectGuid) : ActorSnapshot :=
  { guid := guid, role := "dps", classSpec := "fire_mage", alive := true }

/-- A living Lava Parasite. -/
private def parasite : ActorSnapshot := { guid := 100, entry := parasiteEntry, alive := true }

/-- A parasite, quiet long enough for the wave to complete, and the next parasite. -/
private def twoWaves : List Blackboard :=
  [{ revision := 1, observedAtMs := 1000, players := [fireMage 7, fireMage 9],
     hostiles := [parasite] },
   { revision := 2, observedAtMs := 2000, players := [fireMage 7, fireMage 9] },
   { revision := 3, observedAtMs := 5000, players := [fireMage 7, fireMage 9] },
   { revision := 4, observedAtMs := 9000, players := [fireMage 7, fireMage 9],
     hostiles := [parasite] }]

/-- Two waves are counted, and the second mage baits the second. -/
theorem rotation_duty_twoWaves :
    twoWaves.Pairwise Later ∧ ClockInRange twoWaves ∧
      (rotation "magmaw" twoWaves).activeMage = 9 ∧ wavesSeen (rotation "magmaw" twoWaves) = 2 ∧
      CountsWaves mageBoards "magmaw" twoWaves :=
  have hlater : twoWaves.Pairwise Later := by decide
  have hrange : ClockInRange twoWaves := by decide
  ⟨hlater, hrange, by decide, by decide, (rotation_duty "magmaw" twoWaves hlater hrange).2.2.2⟩

/-- A parasite on a board without a mage to latch, then a quiet board with one. -/
private def unbaitedSighting : List Blackboard :=
  [{ revision := 1, observedAtMs := 1000, hostiles := [parasite] },
   { revision := 2, observedAtMs := 2000, players := [fireMage 7] }]

/-- A parasite, a quiet board and a parasite again, at the end of the clock. -/
private def lastMoments : List Blackboard :=
  [{ revision := 1, observedAtMs := 0xFFFFFFFFFFFFFFF0, players := [fireMage 7],
     hostiles := [parasite] },
   { revision := 2, observedAtMs := 0xFFFFFFFFFFFFFFF1, players := [fireMage 7] },
   { revision := 3, observedAtMs := 0xFFFFFFFFFFFFFFF2, players := [fireMage 7],
     hostiles := [parasite] }]

/-- Sightings made before a mage is latched are not counted, and where the quiet boundary
overflows the clock a group is counted twice. -/
theorem rotation_miscounts :
    (unbaitedSighting.Pairwise Later ∧ ClockInRange unbaitedSighting ∧
      ¬ CountsWaves id "magmaw" unbaitedSighting) ∧
    (lastMoments.Pairwise Later ∧ ¬ CountsWaves id "magmaw" lastMoments) := by
  have hfirst : ¬ wavesSeen (rotation "magmaw" unbaitedSighting) =
      waveCount unbaitedSighting := by decide
  have hsecond : ¬ wavesSeen (rotation "magmaw" lastMoments) = waveCount lastMoments := by
    decide
  exact ⟨⟨by decide, by decide, hfirst⟩, by decide, hsecond⟩

end TrinityCore.Magmaw.BaiterRotation
