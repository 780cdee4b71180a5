import Mathlib.Data.List.Induction
import Mathlib.Data.List.Pairwise
import Mathlib.Data.String.Basic
import TrinityCore.Bots.ActionArbiter
import TrinityCore.Lib.Float32Order

/-!
# Submission order

Producers submit in any order. On scores that are numbers `Better` compares ranks in a
linear order, so the deduplication of `Submit` keeps the best form of every key and the sort
of `Resolve` lists the survivors by rank: what is resolved depends on the set of candidates
only.
-/

namespace TrinityCore.Bots.ActionArbitration

open List

variable {World : Type}

theorem Priority.toUInt8_inj {a b : Priority} (h : a.toUInt8 = b.toUInt8) : a = b := by
  cases a <;> cases b <;> first | rfl | nomatch h

namespace Proposal

/-- The place of a candidate in the order of `Better`: lower is better. -/
def rank (candidate : Proposal) :
    Natᵒᵈ ×ₗ (Int ×ₗ Int ×ₗ Int)ᵒᵈ ×ₗ String ×ₗ String :=
  toLex (.toDual candidate.actionPriority.toUInt8.toNat,
    toLex (.toDual candidate.score.rank, toLex (candidate.source, candidate.key)))

/-- Two candidates share key, priority, score and source. -/
def Tied (a b : Proposal) : Prop :=
  a.key = b.key ∧ a.actionPriority = b.actionPriority ∧ (a.score == b.score) = true ∧
    a.source = b.source

variable {a b : Proposal}

theorem rank_eq_iff : a.rank = b.rank ↔
    a.actionPriority = b.actionPriority ∧ a.score.rank = b.score.rank ∧
      a.source = b.source ∧ a.key = b.key := by
  have hpriority : a.actionPriority.toUInt8.toNat = b.actionPriority.toUInt8.toNat ↔
      a.actionPriority = b.actionPriority := by
    constructor
    · intro h
      exact Priority.toUInt8_inj (UInt8.toNat_inj.mp h)
    · intro h
      rw [h]
  simp [rank, hpriority]

theorem tied_iff (ha : a.score.isNaN = false) (hb : b.score.isNaN = false) :
    a.Tied b ↔ a.key = b.key ∧ a.rank = b.rank := by
  rw [Tied, rank_eq_iff, Float32.beq_iff_rank_eq ha hb]
  constructor
  · rintro ⟨hkey, hpriority, hscore, hsource⟩
    exact ⟨hkey, hpriority, hscore, hsource, hkey⟩
  · rintro ⟨hkey, hpriority, hscore, hsource, -⟩
    exact ⟨hkey, hpriority, hscore, hsource⟩

theorem Tied.symm (h : a.Tied b) : b.Tied a :=
  ⟨h.1.symm, h.2.1.symm, Float32.beq_symm h.2.2.1, h.2.2.2.symm⟩

end Proposal

/-- `Better` compares ranks, and serials when they agree. -/
theorem better_iff {left right : Queued World} (hleft : left.value.score.isNaN = false)
    (hright : right.value.score.isNaN = false) :
    better left right = true ↔
      left.value.rank < right.value.rank ∨
        left.value.rank = right.value.rank ∧ left.serial < right.serial := by
  have hscore : left.value.score != right.value.score ↔
      ¬ left.value.score.rank = right.value.score.rank := by
    rw [bne, Bool.not_eq_true', ← Bool.not_eq_true, Float32.beq_iff_rank_eq hleft hright]
  rw [Proposal.rank_eq_iff]
  unfold better
  by_cases hp : left.value.actionPriority = right.value.actionPriority
  · by_cases hs : left.value.score.rank = right.value.score.rank
    · by_cases hsrc : left.value.source = right.value.source
      · by_cases hk : left.value.key = right.value.key
        · simp [hp, hscore, hs, hsrc, hk, Proposal.rank]
        · simp [hp, hscore, hs, hsrc, hk, Proposal.rank, Prod.Lex.lt_iff]
      · simp [hp, hscore, hs, hsrc, Proposal.rank, Prod.Lex.lt_iff]
    · simp [hp, hscore, hs, Proposal.rank, Prod.Lex.lt_iff, Float32.lt_iff_rank_lt hright hleft]
  · have hne : left.value.actionPriority.toUInt8.toNat ≠
        right.value.actionPriority.toUInt8.toNat :=
      fun h => hp (Priority.toUInt8_inj (UInt8.toNat_inj.mp h))
    simp [hp, hne, Proposal.rank, Prod.Lex.lt_iff, UInt8.lt_iff_toNat_lt]

/-! ### Submission -/

/-- The rank an accepted candidate is kept and sorted by. -/
def Accepted.rank (candidate : Accepted World) :
    Natᵒᵈ ×ₗ (Int ×ₗ Int ×ₗ Int)ᵒᵈ ×ₗ String ×ₗ String := candidate.toProposal.rank

/-- The key it is kept under. -/
def Accepted.slot (candidate : Accepted World) : String := candidate.key

/-- The candidates of a list that `Submit` accepts. -/
def accepted (candidates : List (Candidate World)) : List (Accepted World) :=
  candidates.filterMap Candidate.accept?

theorem toProposal_of_accept? {candidate : Candidate World} {value : Accepted World}
    (h : candidate.accept? = some value) : value.toProposal = candidate.toProposal := by
  unfold Candidate.accept? at h
  split at h
  · nomatch h
  · split at h
    · nomatch h
    · rw [← Option.some.inj h]

variable {candidates : List (Candidate World)}

/-- What is accepted was submitted. -/
theorem exists_of_mem_accepted {value : Accepted World} (h : value ∈ accepted candidates) :
    ∃ candidate ∈ candidates, value.toProposal = candidate.toProposal := by
  obtain ⟨candidate, hmem, haccept⟩ := mem_filterMap.mp h
  exact ⟨candidate, hmem, toProposal_of_accept? haccept⟩

/-- All scores are numbers. -/
def Numeric (candidates : List (Accepted World)) : Prop :=
  ∀ candidate ∈ candidates, candidate.score.isNaN = false

/-- No two candidates share key, priority, score and source. -/
def Untied (candidates : List (Accepted World)) : Prop :=
  candidates.Pairwise fun a b => ¬ a.Tied b.toProposal

/-- Away from ties queueing offers the candidate to the best ones so far. -/
theorem map_value_enqueue (queued : Queued World) {candidates : List (Queued World)}
    (hnumeric : Numeric (candidates.map Queued.value))
    (hqueued : queued.value.score.isNaN = false)
    (hapart : ∀ existing ∈ candidates.map Queued.value, ¬ existing.Tied queued.value.toProposal) :
    (enqueue queued candidates).map Queued.value =
      BestByKey.offer Accepted.slot Accepted.rank queued.value (candidates.map Queued.value) := by
  unfold enqueue BestByKey.offer
  apply BestByKey.map_upsert
  · intro _
    rfl
  intro existing hmem hkey
  have hvalue : existing.value ∈ candidates.map Queued.value := mem_map_of_mem hmem
  have hexisting := hnumeric existing.value hvalue
  have hrank : queued.value.toProposal.rank ≠ existing.value.toProposal.rank := by
    intro h
    exact hapart existing.value hvalue ((Proposal.tied_iff hexisting hqueued).mpr ⟨hkey, h.symm⟩)
  have hbetter : better queued existing = true ↔ queued.value.rank < existing.value.rank := by
    rw [better_iff hqueued hexisting]
    simp only [hrank, false_and, or_false]
    rfl
  unfold keepBetter BestByKey.lower
  by_cases hlt : queued.value.rank < existing.value.rank
  · rw [if_pos (hbetter.mpr hlt), if_pos hlt]
  · rw [if_neg (fun h => hlt (hbetter.mp h)), if_neg hlt]

variable (kernel : Kernel World)

/-- The queue after any submissions: the best of what was accepted. -/
theorem map_value_submitAll (candidates : List (Candidate World))
    (hqueue : Numeric (kernel.candidates.map Queued.value))
    (hnumeric : Numeric (accepted candidates))
    (hapart : ∀ a ∈ kernel.candidates.map Queued.value, ∀ b ∈ accepted candidates,
      ¬ a.Tied b.toProposal) (huntied : Untied (accepted candidates)) :
    (kernel.submitAll candidates).candidates.map Queued.value =
      (accepted candidates).foldl
        (fun kept value => BestByKey.offer Accepted.slot Accepted.rank value kept)
        (kernel.candidates.map Queued.value) := by
  induction candidates generalizing kernel with
  | nil => rfl
  | cons candidate rest ih =>
    cases haccept : candidate.accept? with
    | none =>
      have hskip : accepted (candidate :: rest) = accepted rest := filterMap_cons_none haccept
      have hsubmit : kernel.submit candidate = kernel := by simp only [Kernel.submit, haccept]
      rw [hskip] at hnumeric hapart huntied ⊢
      show ((kernel.submit candidate).submitAll rest).candidates.map _ = _
      rw [hsubmit]
      exact ih kernel hqueue hnumeric hapart huntied
    | some value =>
      have htake : accepted (candidate :: rest) = value :: accepted rest :=
        filterMap_cons_some haccept
      rw [htake] at hnumeric hapart huntied ⊢
      have hvalue : value.score.isNaN = false := hnumeric value mem_cons_self
      have hsubmit : (kernel.submit candidate).candidates.map Queued.value =
          BestByKey.offer Accepted.slot Accepted.rank value
            (kernel.candidates.map Queued.value) := by
        simp only [Kernel.submit, haccept]
        apply map_value_enqueue ⟨value, kernel.nextSerial⟩ hqueue hvalue
        intro existing hmem
        exact hapart existing hmem value mem_cons_self
      rw [foldl_cons, ← hsubmit]
      apply ih
      · intro a ha
        rw [hsubmit] at ha
        rcases BestByKey.mem_offer ha with rfl | hold
        · exact hvalue
        · exact hqueue a hold
      · intro b hb
        exact hnumeric b (mem_cons_of_mem value hb)
      · intro a ha b hb
        rw [hsubmit] at ha
        rcases BestByKey.mem_offer ha with rfl | hold
        · exact (pairwise_cons.mp huntied).1 b hb
        · exact hapart a hold b (mem_cons_of_mem value hb)
      · exact (pairwise_cons.mp huntied).2

/-- Submitting touches the queue only. -/
theorem toFrame_submitAll (candidates : List (Candidate World)) :
    (kernel.submitAll candidates).toFrame = kernel.toFrame := by
  induction candidates generalizing kernel with
  | nil => rfl
  | cons candidate rest ih =>
    show ((kernel.submit candidate).submitAll rest).toFrame = _
    rw [ih]
    unfold Kernel.submit
    split <;> rfl

/-- Every accepted candidate takes a serial. -/
theorem nextSerial_submitAll (candidates : List (Candidate World)) :
    (kernel.submitAll candidates).nextSerial =
      kernel.nextSerial + (accepted candidates).length := by
  induction candidates generalizing kernel with
  | nil => rfl
  | cons candidate rest ih =>
    show ((kernel.submit candidate).submitAll rest).nextSerial = _
    rw [ih]
    cases haccept : candidate.accept? with
    | none => simp [Kernel.submit, haccept, accepted]
    | some value =>
      simp [Kernel.submit, haccept, accepted]
      omega

/-! ### Ranking -/

/-- The ranked candidates are the queued ones sorted by rank. -/
theorem ranked_eq (hnumeric : Numeric (kernel.candidates.map Queued.value)) :
    kernel.ranked = (kernel.candidates.map Queued.value).insertionSort
      fun a b => a.rank ≤ b.rank := by
  apply map_insertionSort
  intro left hleft right hright
  have hl := hnumeric left.value (mem_map_of_mem hleft)
  have hr := hnumeric right.value (mem_map_of_mem hright)
  rw [← Bool.not_eq_true, better_iff hr hl, not_or, not_lt]
  refine ⟨And.left, fun hle => ⟨hle, ?_⟩⟩
  rintro ⟨hrank, hserial⟩
  have hkey : right.key = left.key := (Proposal.rank_eq_iff.mp hrank).2.2.2
  rw [inj_on_of_nodup_map kernel.distinct hright hleft hkey] at hserial
  exact lt_irrefl _ hserial

/-- Sorting by rank forgets the order of candidates with distinct ranks. -/
theorem insertionSort_rank_eq {candidates candidates' : List (Accepted World)}
    (hperm : candidates.Perm candidates') (hkeys : (candidates.map Accepted.slot).Nodup) :
    (candidates.insertionSort fun a b => a.rank ≤ b.rank) =
      candidates'.insertionSort fun a b => a.rank ≤ b.rank := by
  have htotal : Std.Total fun a b : Accepted World => a.rank ≤ b.rank :=
    ⟨fun a b => le_total a.rank b.rank⟩
  have htrans : IsTrans (Accepted World) fun a b => a.rank ≤ b.rank :=
    ⟨fun a b c hab hbc => le_trans hab hbc⟩
  apply List.Perm.eq_of_pairwise _ (pairwise_insertionSort _ _)
    (pairwise_insertionSort _ _)
  · exact (perm_insertionSort _ _).trans (hperm.trans (perm_insertionSort _ _).symm)
  · intro a b ha hb hab hba
    have hrank : a.toProposal.rank = b.toProposal.rank := le_antisymm hab hba
    apply inj_on_of_nodup_map hkeys
    · exact (mem_insertionSort _).mp ha
    · exact hperm.mem_iff.mpr ((mem_insertionSort _).mp hb)
    · exact (Proposal.rank_eq_iff.mp hrank).2.2.2

/-! ### One tick -/

/-- A tick before its submissions: `Begin` and the admission set-up. -/
def Kernel.prepare (nowMs : UInt64) (policy : Option AdmissionPolicy)
    (admissions : List (String × AdmissionMetadata)) : Kernel World :=
  admissions.foldl (fun kernel admission => kernel.setCandidateAdmission admission.1 admission.2)
    ((kernel.begin nowMs).setAdmissionPolicy policy)

theorem candidates_prepare (nowMs : UInt64) (policy : Option AdmissionPolicy)
    (admissions : List (String × AdmissionMetadata)) :
    (kernel.prepare nowMs policy admissions).candidates = [] := by
  unfold Kernel.prepare
  induction admissions using reverseRecOn with
  | nil => rfl
  | append_singleton admissions admission ih => rwa [foldl_append]

/-- All a tick takes over from the one before is the lifecycles. -/
theorem prepare_congr {kernel kernel' : Kernel World} (h : kernel.lifecycles = kernel'.lifecycles)
    (nowMs : UInt64) (policy : Option AdmissionPolicy)
    (admissions : List (String × AdmissionMetadata)) :
    kernel.prepare nowMs policy admissions = kernel'.prepare nowMs policy admissions := by
  simp only [Kernel.prepare, Kernel.begin, h]

theorem numeric_accepted (h : ∀ candidate ∈ candidates, candidate.score.isNaN = false) :
    Numeric (accepted candidates) := by
  intro value hvalue
  obtain ⟨candidate, hmem, heq⟩ := exists_of_mem_accepted hvalue
  rw [heq]
  exact h candidate hmem

theorem untied_accepted (h : candidates.Pairwise fun a b => ¬ a.Tied b.toProposal) :
    Untied (accepted candidates) := by
  apply h.filterMap
  intro a b hab value hvalue value' hvalue'
  rw [toProposal_of_accept? hvalue, toProposal_of_accept? hvalue']
  exact hab

/-- Accepted candidates with one key and one rank are one candidate. -/
theorem eq_of_rank_eq {candidates : List (Accepted World)} (hnumeric : Numeric candidates)
    (huntied : Untied candidates) :
    ∀ a ∈ candidates, ∀ b ∈ candidates, a.slot = b.slot → a.rank = b.rank → a = b := by
  intro a ha b hb hkey hrank
  by_contra hne
  have hsymm : Std.Symm fun a b : Accepted World => ¬ a.Tied b.toProposal :=
    ⟨fun _ _ h h' => h h'.symm⟩
  apply huntied.forall ha hb hne
  exact (Proposal.tied_iff (hnumeric a ha) (hnumeric b hb)).mpr ⟨hkey, hrank⟩

/-- Two submission orders end in the same ranked candidates. -/
theorem ranked_submitAll_eq {kernel : Kernel World} (hempty : kernel.candidates = [])
    {candidates' : List (Candidate World)} (hperm : candidates.Perm candidates')
    (hnumeric : ∀ candidate ∈ candidates, candidate.score.isNaN = false)
    (huntied : candidates.Pairwise fun a b => ¬ a.Tied b.toProposal) :
    (kernel.submitAll candidates).ranked = (kernel.submitAll candidates').ranked := by
  have hnumeric' : ∀ candidate ∈ candidates', candidate.score.isNaN = false := by
    intro candidate hmem
    exact hnumeric candidate (hperm.mem_iff.mpr hmem)
  have huntied' : candidates'.Pairwise fun a b => ¬ a.Tied b.toProposal :=
    hperm.pairwise huntied fun h h' => h h'.symm
  have hvalues := map_value_submitAll kernel candidates (by simp [hempty, Numeric])
    (numeric_accepted hnumeric) (by simp [hempty]) (untied_accepted huntied)
  have hvalues' := map_value_submitAll kernel candidates' (by simp [hempty, Numeric])
    (numeric_accepted hnumeric') (by simp [hempty]) (untied_accepted huntied')
  rw [hempty, map_nil] at hvalues hvalues'
  have hbest := BestByKey.best_foldl Accepted.slot Accepted.rank (accepted candidates)
  have hbest' := BestByKey.best_foldl Accepted.slot Accepted.rank (accepted candidates')
  rw [← hvalues] at hbest
  rw [← hvalues'] at hbest'
  have hvaluesPerm := hbest.perm hbest' (hperm.filterMap _)
    (eq_of_rank_eq (numeric_accepted hnumeric) (untied_accepted huntied))
  rw [ranked_eq _ fun a ha => numeric_accepted hnumeric a (hbest.offered a ha),
    ranked_eq _ fun a ha => numeric_accepted hnumeric' a (hbest'.offered a ha)]
  exact insertionSort_rank_eq hvaluesPerm hbest.nodup

/-- Whatever the order of submission, and whatever the callbacks do, one tick resolves to the
same kernel (committed candidates, claimed lanes, terminal flag, trace and lifecycles), the
same world and the same attempts. Candidates without a key or a callback may be among the
submitted; they are refused in either order. -/
theorem resolve_independent_of_submission_order {kernel kernel' : Kernel World}
    (hlifecycles : kernel.lifecycles = kernel'.lifecycles) (nowMs : UInt64)
    (policy : Option AdmissionPolicy) (admissions : List (String × AdmissionMetadata))
    {candidates candidates' : List (Candidate World)} (hperm : candidates.Perm candidates')
    (hnumeric : ∀ candidate ∈ candidates, candidate.score.isNaN = false)
    (huntied : candidates.Pairwise fun a b => ¬ a.Tied b.toProposal) (world : World) :
    ((kernel.prepare nowMs policy admissions).submitAll candidates).resolve world =
      ((kernel'.prepare nowMs policy admissions).submitAll candidates').resolve world := by
  rw [← prepare_congr hlifecycles nowMs policy admissions]
  have hranked := ranked_submitAll_eq
    (candidates_prepare kernel nowMs policy admissions) hperm hnumeric huntied
  have hserial : (accepted candidates).length = (accepted candidates').length :=
    (hperm.filterMap _).length_eq
  simp only [Kernel.resolve, toFrame_submitAll, nextSerial_submitAll, hranked, hserial]

/-- Two forms of one movement candidate and a spell. -/
def moveAndCast : List (Candidate Unit) :=
  [{ key := "move", source := "route", actionPriority := .routeMovement, utilityScore := 0.5
     requiredResources := 4, attempt := some fun world _ => ⟨.committed "moved", [], world⟩ },
   { key := "cast", source := "rotation", actionPriority := .trainedDamage, policyScore := 2
     policyWeight := 0.25, requiredResources := 3
     attempt := some fun world _ => ⟨.committed "cast", [], world⟩ },
   { key := "move", source := "mechanic", actionPriority := .mechanic, utilityScore := 1
     requiredResources := 4, attempt := some fun world _ => ⟨.committed "dodged", [], world⟩ }]

theorem resolve_moveAndCast :
    ((({} : Kernel Unit).prepare 1000 none []).submitAll moveAndCast).resolve () =
        ((({} : Kernel Unit).prepare 1000 none []).submitAll moveAndCast.reverse).resolve () ∧
      (((({} : Kernel Unit).prepare 1000 none []).submitAll moveAndCast).resolve ()
        ).1.lastResolution.committedCandidates = ["move", "cast"] := by
  refine ⟨?_, by decide +kernel⟩
  apply resolve_independent_of_submission_order rfl
  · exact (reverse_perm moveAndCast).symm
  · decide +kernel
  · unfold moveAndCast Proposal.Tied
    decide +kernel

end TrinityCore.Bots.ActionArbitration
