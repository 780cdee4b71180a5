import Mathlib.Data.List.DropRight

/-!
# Groups of sightings closed by quiet

Samples arrive in time order; some are sightings. A group of sightings is closed once the
samples after its last sighting have been quiet for `gap`, measured from the first quiet
sample to the last. A later sighting opens the next group.
-/

universe u

namespace QuietGroups

open List

variable {α : Type u} (sighting : α → Bool) (time : α → Nat) (gap : Nat)

/-- The samples after the last sighting. -/
def quietTail (samples : List α) : List α := samples.rtakeWhile fun x => !sighting x

/-- When the present quiet began, if the last sample is quiet. -/
def quietSince (samples : List α) : Option Nat := (quietTail sighting samples).head?.map time

/-- A group is open: there is a sighting, and the quiet since has not lasted `gap`. -/
def live (samples : List α) : Bool :=
  samples.any sighting &&
    match quietSince sighting time samples, samples.getLast? with
    | some since, some last => decide (time last < since + gap)
    | _, _ => true

/-- The sample is a sighting that no open group takes in. -/
def opens (before : List α) (x : α) : Bool := sighting x && !live sighting time gap before

/-- The number of groups opened by `samples` when they follow `before`. -/
def groupCount : List α → List α → Nat
  | _, [] => 0
  | before, x :: rest =>
    (if opens sighting time gap before x then 1 else 0) + groupCount (before ++ [x]) rest

variable {sighting time gap} {samples : List α} {x : α}

/-- The last sample opens a group or not. -/
theorem groupCount_concat (before : List α) :
    groupCount sighting time gap before (samples ++ [x]) =
      groupCount sighting time gap before samples +
        if opens sighting time gap (before ++ samples) x then 1 else 0 := by
  induction samples generalizing before with
  | nil => simp [groupCount]
  | cons y samples ih =>
    rw [cons_append, groupCount, groupCount, ih, append_assoc, singleton_append]
    omega

/-- A sighting ends the quiet. -/
theorem quietSince_concat_sighting (h : sighting x = true) :
    quietSince sighting time (samples ++ [x]) = none := by
  rw [quietSince, quietTail, rtakeWhile_concat_neg]
  · rfl
  · simp [h]

/-- A quiet sample continues the quiet or begins it. -/
theorem quietSince_concat_quiet (h : sighting x = false) :
    quietSince sighting time (samples ++ [x]) =
      some ((quietSince sighting time samples).getD (time x)) := by
  rw [quietSince, quietSince, quietTail, quietTail, rtakeWhile_concat_pos]
  · cases rtakeWhile (fun x => !sighting x) samples with
    | nil => rfl
    | cons y rest => rfl
  · simp [h]

/-- A sighting is always in an open group. -/
theorem live_concat_sighting (h : sighting x = true) :
    live sighting time gap (samples ++ [x]) = true := by
  rw [live, quietSince_concat_sighting h]
  simp [h]

/-- After a quiet sample the group is open while the quiet is shorter than `gap`. -/
theorem live_concat_quiet (h : sighting x = false) :
    live sighting time gap (samples ++ [x]) = (samples.any sighting &&
      decide (time x < (quietSince sighting time samples).getD (time x) + gap)) := by
  rw [live, quietSince_concat_quiet h, getLast?_concat]
  simp [h]

/-- Before any sighting no group is open. -/
theorem any_of_live (h : live sighting time gap samples = true) :
    samples.any sighting = true := (Bool.and_eq_true _ _).mp h |>.1

/-- A closed group has been quiet for `gap`, and has been since a sample that is no later
than the last one. -/
theorem closed_iff (h : live sighting time gap samples = false)
    (hany : samples.any sighting = true) :
    ∃ since last, quietSince sighting time samples = some since ∧
      samples.getLast? = some last ∧ since + gap ≤ time last := by
  rw [live, hany, Bool.true_and] at h
  split at h
  · next since last hsince hlast =>
    exact ⟨since, last, hsince, hlast, by simpa using h⟩
  · exact nomatch h

/-- A closed group stays closed until the next sighting. -/
theorem live_concat_quiet_of_closed (h : live sighting time gap samples = false)
    (hquiet : sighting x = false) (htime : ∀ y ∈ samples, time y ≤ time x) :
    live sighting time gap (samples ++ [x]) = false := by
  rw [live_concat_quiet hquiet]
  cases hany : samples.any sighting with
  | false => rfl
  | true =>
    obtain ⟨since, last, hsince, hlast, hgap⟩ := closed_iff h hany
    have hle := htime last (mem_of_getLast? hlast)
    rw [hsince, Option.getD_some, Bool.true_and, decide_eq_false_iff_not]
    omega

/-- When no group is open, every sighting is at least `gap` older than the last sample. -/
theorem sighting_gap_le (hsorted : samples.Pairwise (time · ≤ time ·))
    (h : live sighting time gap samples = false) {s last : α} (hs : s ∈ samples)
    (hsighting : sighting s = true) (hlast : samples.getLast? = some last) :
    time s + gap ≤ time last := by
  have hany : samples.any sighting = true := any_eq_true.mpr ⟨s, hs, hsighting⟩
  obtain ⟨since, last', hsince, hlast', hgap⟩ := closed_iff h hany
  obtain rfl : last' = last := Option.some.inj (hlast'.symm.trans hlast)
  obtain ⟨first, hfirst, rfl⟩ := Option.map_eq_some_iff.mp hsince
  have hsplit := rdropWhile_append_rtakeWhile (p := fun x => !sighting x) (l := samples)
  have hquiet : s ∉ quietTail sighting samples := by
    intro hmem
    have := mem_rtakeWhile_imp hmem
    simp [hsighting] at this
  have hbefore : s ∈ samples.rdropWhile fun x => !sighting x := by
    rw [← hsplit, mem_append] at hs
    exact hs.resolve_right hquiet
  rw [← hsplit, pairwise_append] at hsorted
  have hle : time s ≤ time first := hsorted.2.2 s hbefore first (mem_of_head? hfirst)
  omega

end QuietGroups
