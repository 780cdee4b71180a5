import Mathlib.Algebra.Ring.Nat
import Mathlib.Data.List.DropRight
import TrinityCore.Bots.ActionArbiterResolve

/-!
# Streaks of failures

What the lifecycle of a key says after any history of `Observe` calls: its failures since the last
outcome that ends a streak, with timed waits anywhere between them.
-/

namespace TrinityCore.Bots.ActionArbitration

open Bool Lifecycle List

/-- The arguments of one `Observe` call on a key. -/
structure Observation where
  outcome : Outcome
  nowMs : UInt64
  retryBaseMs : UInt32 := 100
  retryMaxMs : UInt32 := 3000
  escalateAfter : UInt8 := 5
  deriving DecidableEq, Repr

namespace Observation

/-- The outcome ends a streak of failures. -/
def resets (observation : Observation) : Bool :=
  observation.outcome.result = .committed || observation.outcome.result = .notApplicable

/-- The outcome is a timed wait. -/
def waits (observation : Observation) : Bool :=
  observation.outcome.result = .retryable && observation.outcome.retryAtMs != 0

/-- The outcome is a failure. -/
def fails (observation : Observation) : Bool := !observation.resets && !observation.waits

end Observation

namespace Lifecycle

/-- `Observe` with the arguments of an observation. -/
def observeOne (lifecycle : Lifecycle) (observation : Observation) : Lifecycle :=
  lifecycle.observe observation.outcome observation.nowMs observation.retryBaseMs
    observation.retryMaxMs observation.escalateAfter

def observeAll (history : List Observation) : Lifecycle := history.foldl observeOne {}

end Lifecycle

/-- `Observe` calls on any keys. -/
def Frame.observeAll (frame : Frame) (history : List (String × Observation)) : Frame :=
  history.foldl (fun frame call => frame.observe call.1 call.2.outcome call.2.nowMs
    call.2.retryBaseMs call.2.retryMaxMs call.2.escalateAfter) frame

/-- The calls on one key. -/
def observations (key : String) (history : List (String × Observation)) : List Observation :=
  (history.filter fun call => call.1 = key).map Prod.snd

/-- The failures since the last outcome that ends a streak. -/
def streak (history : List Observation) : List Observation :=
  (history.rtakeWhile fun observation => !observation.resets).filter Observation.fails

/-- The time that an action is left alone after a failure, with so many failures in its streak. -/
def Observation.backoff (observation : Observation) (failures : Nat) : Nat :=
  min observation.retryMaxMs.toNat (observation.retryBaseMs.toNat * 2 ^ min (failures - 1) 8)

/-! ### One more observation -/

variable {history : List Observation} {observation : Observation} {lifecycle : Lifecycle}

@[simp] theorem streak_nil : streak [] = [] := rfl

theorem streak_of_resets (h : observation.resets = true) :
    streak (history ++ [observation]) = [] := by
  unfold streak
  rw [rtakeWhile_concat, h]
  rfl

theorem streak_of_not_resets (h : observation.resets = false) :
    streak (history ++ [observation]) =
      streak history ++ if observation.fails then [observation] else [] := by
  unfold streak
  rw [rtakeWhile_concat, h]
  simp only [Bool.not_false, ↓reduceIte, filter_append]
  by_cases hfails : observation.fails = true
  · simp [hfails]
  · simp [hfails]

theorem observeOne_of_resets (h : observation.resets = true) :
    (lifecycle.observeOne observation).consecutiveFailures = 0 ∧
      (lifecycle.observeOne observation).firstFailureAtMs = 0 := by
  unfold observeOne observe
  cases hresult : observation.outcome.result with
  | committed =>
    dsimp only
    split
    · exact ⟨rfl, rfl⟩
    · exact ⟨rfl, rfl⟩
  | notApplicable => exact ⟨rfl, rfl⟩
  | _ => simp [Observation.resets, hresult] at h

theorem observeOne_of_waits (h : observation.waits = true) :
    (lifecycle.observeOne observation).consecutiveFailures = lifecycle.consecutiveFailures ∧
      (lifecycle.observeOne observation).firstFailureAtMs = lifecycle.firstFailureAtMs := by
  simp only [Observation.waits, and_eq_true, decide_eq_true_eq, bne_iff_ne] at h
  unfold observeOne observe
  rw [h.1]
  dsimp only
  rw [if_pos h.2]
  exact ⟨rfl, rfl⟩

/-- A failure, of any of its dispositions. -/
theorem observeOne_of_fails (h : observation.fails = true) :
    (lifecycle.observeOne observation).consecutiveFailures = lifecycle.consecutiveFailures + 1 ∧
      (lifecycle.observeOne observation).firstFailureAtMs =
        (if lifecycle.consecutiveFailures = 0 then observation.nowMs
          else lifecycle.firstFailureAtMs) ∧
      (lifecycle.observeOne observation).retryAfterMs =
        observation.nowMs + min observation.retryMaxMs.toUInt64
          (observation.retryBaseMs.toUInt64 <<<
            (min (lifecycle.consecutiveFailures + 1 - 1) 8).toUInt64) := by
  unfold observeOne observe
  cases hresult : observation.outcome.result with
  | committed => simp [Observation.fails, Observation.resets, hresult] at h
  | notApplicable => simp [Observation.fails, Observation.resets, hresult] at h
  | retryable =>
    have hwait : ¬observation.outcome.retryAtMs ≠ 0 := by
      simpa [Observation.fails, Observation.resets, Observation.waits, hresult] using h
    dsimp only
    rw [if_neg hwait]
    exact ⟨rfl, rfl, rfl⟩
  | unsafeToTry => exact ⟨rfl, rfl, rfl⟩
  | terminal => exact ⟨rfl, rfl, rfl⟩

/-- The delay of a failure, in 64 bits. -/
theorem toNat_retryAfter (observation : Observation) (failures : UInt32)
    (hnow : observation.nowMs.toNat < 2 ^ 63) :
    (observation.nowMs + min observation.retryMaxMs.toUInt64
        (observation.retryBaseMs.toUInt64 <<< (min (failures + 1 - 1) 8).toUInt64)).toNat =
      observation.nowMs.toNat + observation.backoff (failures.toNat + 1) := by
  have hcancel : failures + 1 - 1 = failures := by
    apply UInt32.toNat_inj.mp
    simp
  have hmax := observation.retryMaxMs.toNat_lt
  have hbase := observation.retryBaseMs.toNat_lt
  have hshift : 2 ^ min failures.toNat 8 ≤ 2 ^ 8 := Nat.pow_le_pow_right (by omega) (by omega)
  have hdelay : observation.retryBaseMs.toNat * 2 ^ min failures.toNat 8 < 2 ^ 64 := by
    have := Nat.mul_le_mul (Nat.le_of_lt hbase) hshift
    omega
  have height : (8 : UInt32).toNat = 8 := rfl
  unfold Observation.backoff
  rw [hcancel, UInt64.toNat_add, UInt64.toNat_min, UInt64.toNat_shiftLeft, UInt32.toNat_toUInt64,
    UInt32.toNat_toUInt64, UInt32.toNat_toUInt64, UInt32.toNat_min, height,
    Nat.mod_eq_of_lt (by omega : min failures.toNat 8 < 64), Nat.shiftLeft_eq,
    Nat.mod_eq_of_lt hdelay, Nat.add_sub_cancel]
  omega

/-! ### Histories -/

/-- The lifecycle knows the length of the streak, and when it began. -/
theorem observeAll_streak (history : List Observation) :
    (observeAll history).consecutiveFailures =
        UInt32.ofNat (streak history).length ∧
      ((streak history).length < 2 ^ 32 →
        (observeAll history).firstFailureAtMs =
          ((streak history).head?.map Observation.nowMs).getD 0) := by
  induction history using reverseRecOn with
  | nil => exact ⟨rfl, fun _ => rfl⟩
  | append_singleton history observation ih =>
    obtain ⟨hcount, hfirst⟩ := ih
    have hnext : observeAll (history ++ [observation]) =
        (observeAll history).observeOne observation := foldl_concat _ _ _ _
    rw [hnext]
    by_cases hresets : observation.resets = true
    · obtain ⟨hcount', hfirst'⟩ := @observeOne_of_resets observation
        (observeAll history) hresets
      rw [streak_of_resets hresets, hcount', hfirst']
      exact ⟨rfl, fun _ => rfl⟩
    rw [not_eq_true] at hresets
    rw [streak_of_not_resets hresets]
    by_cases hwaits : observation.waits = true
    · obtain ⟨hcount', hfirst'⟩ := @observeOne_of_waits observation
        (observeAll history) hwaits
      have hfails : observation.fails = false := by simp [Observation.fails, hwaits]
      rw [hfails, hcount', hfirst']
      simp only [false_eq_true, ↓reduceIte, append_nil]
      exact ⟨hcount, hfirst⟩
    · have hfails : observation.fails = true := by
        simp [Observation.fails, hresets, eq_false_iff.mpr hwaits]
      obtain ⟨hcount', hfirst', -⟩ := @observeOne_of_fails observation
        (observeAll history) hfails
      rw [hfails, hcount', hfirst', hcount]
      simp only [↓reduceIte, length_append, length_singleton]
      refine ⟨by simp, fun hlength => ?_⟩
      cases hstreak : streak history with
      | nil => simp
      | cons first rest =>
        rw [hstreak] at hfirst hlength
        have hne : UInt32.ofNat (first :: rest).length ≠ 0 := by
          intro hzero
          have hnat := congrArg UInt32.toNat hzero
          rw [UInt32.toNat_ofNat_of_lt' (by simpa using Nat.lt_of_succ_lt hlength)] at hnat
          exact absurd hnat (Nat.succ_ne_zero _)
        rw [if_neg hne, hfirst (Nat.lt_of_succ_lt hlength)]
        rfl

theorem observations_concat (key : String) (history : List (String × Observation))
    (call : String × Observation) :
    observations key (history ++ [call]) =
      observations key history ++ if call.1 = key then [call.2] else [] := by
  unfold observations
  rw [filter_append, map_append]
  by_cases hkey : call.1 = key
  · simp [hkey]
  · simp [hkey]

/-- The kernel's lifecycle of a key is that of the calls on it. -/
theorem getElem?_observeAll (key : String) (history : List (String × Observation)) :
    (Frame.observeAll {} history).lifecycles[key]? =
      if observations key history = [] then none
      else some (observeAll (observations key history)) := by
  induction history using reverseRecOn with
  | nil => exact Std.ExtTreeMap.getElem?_empty
  | append_singleton history call ih =>
    have hnext : Frame.observeAll {} (history ++ [call]) =
        (Frame.observeAll {} history).observe call.1 call.2.outcome call.2.nowMs
          call.2.retryBaseMs call.2.retryMaxMs call.2.escalateAfter := foldl_concat _ _ _ _
    rw [hnext, getElem?_observe, ih, observations_concat]
    by_cases hkey : call.1 = key
    · have hne : observations key history ++ [call.2] ≠ [] :=
        append_ne_nil_of_right_ne_nil _ (cons_ne_nil _ _)
      have hlast : observeAll (observations key history ++ [call.2]) =
          (observeAll (observations key history)).observeOne call.2 :=
        foldl_concat _ _ _ _
      rw [if_pos hkey, if_pos hkey, if_neg hne, hlast]
      by_cases hnone : observations key history = []
      · rw [if_pos hnone, hnone]
        rfl
      · rw [if_neg hnone]
        rfl
    · rw [if_neg hkey, if_neg hkey, append_nil]

/-- What the lifecycle of a key promises after a history of calls on it. -/
structure KnowsStreak (own : List Observation) (lifecycle : Lifecycle) : Prop where
  consecutiveFailures : lifecycle.consecutiveFailures.toNat = (streak own).length
  firstFailure : ∀ first rest, streak own = first :: rest → lifecycle.firstFailureAtMs = first.nowMs
  firstFailure_zero : (∀ observation ∈ own, observation.nowMs ≠ 0) →
    (lifecycle.firstFailureAtMs = 0 ↔ streak own = [])
  retryAfter : ∀ before last, own = before ++ [last] → last.fails = true →
    last.nowMs.toNat < 2 ^ 63 → lifecycle.retryAfterMs.toNat =
      last.nowMs.toNat + last.backoff (streak own).length

theorem knowsStreak_observeAll {own : List Observation} (hlength : (streak own).length < 2 ^ 32) :
    KnowsStreak own (observeAll own) := by
  obtain ⟨hcount, hfirst⟩ := observeAll_streak own
  have hfirst := hfirst hlength
  refine ⟨?_, fun first rest hstreak => ?_, fun htimes => ?_, ?_⟩
  · rw [hcount]
    exact UInt32.toNat_ofNat_of_lt' hlength
  · rw [hfirst, hstreak]
    rfl
  · cases hstreak : streak own with
    | nil =>
      rw [hfirst, hstreak]
      exact ⟨fun _ => rfl, fun _ => rfl⟩
    | cons first rest =>
      have hmem : first ∈ own := by
        have hstreak' : first ∈ streak own := hstreak ▸ mem_cons_self
        exact (rtakeWhile_suffix _ _).subset (mem_of_mem_filter hstreak')
      rw [hfirst, hstreak]
      exact ⟨fun hzero => absurd hzero (htimes first hmem), nofun⟩
  · rintro before last rfl hfails hnow
    have hnext : observeAll (before ++ [last]) =
        (observeAll before).observeOne last := foldl_concat _ _ _ _
    have hresets : last.resets = false := by
      simp only [Observation.fails, and_eq_true, not_eq_true'] at hfails
      exact hfails.1
    obtain ⟨-, -, hretry⟩ := @observeOne_of_fails last (observeAll before) hfails
    rw [streak_of_not_resets hresets, hfails] at hlength ⊢
    simp only [↓reduceIte, length_append, length_singleton] at hlength ⊢
    rw [hnext, hretry, toNat_retryAfter last _ hnow, (observeAll_streak before).1,
      UInt32.toNat_ofNat_of_lt' (Nat.lt_of_succ_lt hlength)]

/-- An escalation is for a streak that is long enough and old enough. -/
theorem KnowsStreak.of_shouldEscalate {own : List Observation} {lifecycle : Lifecycle}
    (h : KnowsStreak own lifecycle) (hzero : streak own = [] → lifecycle.firstFailureAtMs = 0)
    {nowMs minimum : UInt64} (hminimum : minimum.toNat ≤ 2 ^ 63)
    (hescalate : lifecycle.shouldEscalate nowMs minimum = true) :
    lifecycle.escalateAfter.toNat ≤ (streak own).length ∧
      ∃ first rest, streak own = first :: rest ∧
        (first.nowMs.toNat < 2 ^ 63 → first.nowMs.toNat + minimum.toNat ≤ nowMs.toNat) := by
  unfold shouldEscalate at hescalate
  simp only [and_eq_true, decide_eq_true_eq, bne_iff_ne] at hescalate
  obtain ⟨⟨hcount, hne⟩, hold⟩ := hescalate
  rw [UInt32.le_iff_toNat_le, h.consecutiveFailures, UInt8.toNat_toUInt32] at hcount
  refine ⟨hcount, ?_⟩
  cases hstreak : streak own with
  | nil => exact absurd (hzero hstreak) hne
  | cons first rest =>
    refine ⟨first, rest, rfl, fun hnow => ?_⟩
    rw [h.firstFailure first rest hstreak, UInt64.le_iff_toNat_le, UInt64.toNat_add,
      Nat.mod_eq_of_lt (by omega)] at hold
    exact hold

/-- After any history of calls, on this key and on others, in which the streak has less failures
than the counter has numbers. -/
theorem failure_streak (key : String) (history : List (String × Observation))
    (hlength : (streak (observations key history)).length < 2 ^ 32) :
    KnowsStreak (observations key history) ((Frame.observeAll {} history).lifecycle key) ∧
      ∀ nowMs minimum : UInt64, minimum.toNat ≤ 2 ^ 63 →
        (Frame.observeAll {} history).shouldEscalate key nowMs minimum = true →
          ((Frame.observeAll {} history).lifecycle key).escalateAfter.toNat ≤
              (streak (observations key history)).length ∧
            ∃ first rest, streak (observations key history) = first :: rest ∧
              (first.nowMs.toNat < 2 ^ 63 → first.nowMs.toNat + minimum.toNat ≤ nowMs.toNat) := by
  have hlifecycle : (Frame.observeAll {} history).lifecycle key =
      Lifecycle.observeAll (observations key history) := by
    unfold Frame.lifecycle
    rw [Std.ExtTreeMap.getD_eq_getD_getElem?, getElem?_observeAll]
    split
    · next hnone =>
      rw [hnone]
      rfl
    · rfl
  have hknows := knowsStreak_observeAll hlength
  rw [hlifecycle]
  refine ⟨hknows, fun nowMs minimum hminimum hescalate => ?_⟩
  unfold Frame.shouldEscalate at hescalate
  rw [getElem?_observeAll] at hescalate
  split at hescalate
  · cases hescalate
  · next lifecycle hsome =>
    split at hsome
    · cases hsome
    · cases hsome
      apply hknows.of_shouldEscalate _ hminimum hescalate
      intro hstreak
      rw [(observeAll_streak _).2 hlength, hstreak]
      rfl

/-- A failure at a time, escalated at once. -/
def failureAt (nowMs : UInt64) : Observation where
  outcome := .retryable "out_of_range"
  nowMs := nowMs
  escalateAfter := 1

theorem failure_streak_two : KnowsStreak [failureAt 100, failureAt 250]
    ((Frame.observeAll {} [("a", failureAt 100), ("b", failureAt 200), ("a", failureAt 250)]).lifecycle
      "a") :=
  (failure_streak "a" [("a", failureAt 100), ("b", failureAt 200), ("a", failureAt 250)]
    (by decide)).1

/-- The counter of failures starts again after 2^32 of them, and the time of an escalation is a sum
of 64 bits. -/
theorem failure_streak_wraps :
    (¬∀ (key : String) (history : List (String × Observation)),
      KnowsStreak (observations key history) ((Frame.observeAll {} history).lifecycle key)) ∧
    ¬∀ (key : String) (history : List (String × Observation)) (nowMs minimum : UInt64),
      (Frame.observeAll {} history).shouldEscalate key nowMs minimum = true →
        ∃ first rest, streak (observations key history) = first :: rest ∧
          (first.nowMs.toNat < 2 ^ 63 → first.nowMs.toNat + minimum.toNat ≤ nowMs.toNat) := by
  constructor
  · intro h
    have hfull := h "a" (replicate (2 ^ 32) ("a", failureAt 1))
    have hown : observations "a" (replicate (2 ^ 32) ("a", failureAt 1)) =
        replicate (2 ^ 32) (failureAt 1) := by
      unfold observations
      rw [filter_replicate, if_pos (by decide), map_replicate]
    have hstreak : streak (replicate (2 ^ 32) (failureAt 1)) =
        replicate (2 ^ 32) (failureAt 1) := by
      have hall : (replicate (2 ^ 32) (failureAt 1)).rtakeWhile
          (fun observation => !observation.resets) = replicate (2 ^ 32) (failureAt 1) := by
        rw [rtakeWhile_eq_self_iff]
        intro observation hmem
        rw [eq_of_mem_replicate hmem]
        decide
      unfold streak
      rw [hall, filter_replicate, if_pos (by decide)]
    have hcount := hfull.consecutiveFailures
    unfold Frame.lifecycle at hcount
    rw [Std.ExtTreeMap.getD_eq_getD_getElem?, getElem?_observeAll, hown,
      if_neg (by rw [replicate_eq_nil_iff]; decide), Option.getD_some,
      (observeAll_streak _).1, hstreak, length_replicate] at hcount
    exact absurd hcount (by decide)
  · intro h
    have hescalate : (Frame.observeAll {} [("a", failureAt 1)]).shouldEscalate "a" 1
        18446744073709551615 = true := by
      unfold Frame.shouldEscalate
      rw [getElem?_observeAll]
      decide
    obtain ⟨first, rest, hstreak, hold⟩ := h _ _ _ _ hescalate
    have hfirst : streak (observations "a" [("a", failureAt 1)]) = [failureAt 1] := by decide
    rw [hfirst] at hstreak
    cases hstreak
    exact absurd (hold (by decide)) (by decide)

end TrinityCore.Bots.ActionArbitration
