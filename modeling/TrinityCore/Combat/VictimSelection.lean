import Mathlib.Data.UInt
import Mathlib.Tactic.Linarith
import TrinityCore.Combat.ThreatList

/-!
# The selection of a victim

`ReselectVictim` cuts its walk down the threat list short wherever it knows that nothing below
can matter. The selection is written over any kind of threat values: it is the one of the world
for floats, and for exact values it equals the rule without shortcuts.
-/

namespace TrinityCore.Combat

open Function List

/-! ### The code's selection -/

/-- What `CompareReferencesLT` reads of a reference. -/
structure SortKey (R : Type) where
  online : OnlineState
  taunted : UInt32
  threat : R

/-- `IsAvailable`. -/
def SortKey.isAvailable {R : Type} (key : SortKey R) : Bool := key.online != .offline

/-- `CompareReferencesLT`. -/
def SortKey.lessThan {R : Type} [Mul R] [LT R] [DecidableLT R] (a b : SortKey R) (aWeight : R) :
    Bool :=
  if a.online ≠ b.online then decide (a.online.toNat < b.online.toNat)
  else if a.taunted ≠ b.taunted then decide (a.taunted < b.taunted)
  else decide (a.threat * aWeight < b.threat)

/-- The assertion `ReselectVictim` ends with. -/
inductive SelectionFault
  | currentVictimNotFound
  deriving DecidableEq, Repr

/-- What `ReselectVictim` reads once every reference is up to date. -/
structure VictimSelection (R : Type) where
  key : RefId → SortKey R
  isWithinMeleeRange : RefId → Bool
  fixateRef : Option RefId
  currentVictimRef : Option RefId
  /-- The ordered iteration of the heap, highest first. -/
  ordered : List RefId

namespace VictimSelection

section

variable {R : Type}

/-- `_fixateRef`, when it is available. -/
def availableFixate (s : VictimSelection R) : Option RefId :=
  s.fixateRef.filter fun id => (s.key id).isAvailable

/-- `oldVictimRef`: the current victim, unless it is offline. -/
def oldVictimRef (s : VictimSelection R) : Option RefId :=
  s.currentVictimRef.filter fun id => (s.key id).isAvailable

variable [Mul R] [LT R] [DecidableLT R]

/-- The reference is above the weighted threat of the old victim. -/
def isAbove (s : VictimSelection R) (weight : R) (old id : RefId) : Bool :=
  (s.key old).lessThan (s.key id) weight

/-- The loop down the ordered list. -/
def nextVictim (s : VictimSelection R) (weight110 : R) (old : RefId) :
    List RefId → Except SelectionFault (Option RefId)
  | [] => .error .currentVictimNotFound
  | next :: rest =>
    if next = old then .ok (some next)
    else if !s.isAbove weight110 old next then .ok (some old)
    else if s.isWithinMeleeRange next then .ok (some next)
    else s.nextVictim weight110 old rest

/-- `ReselectVictim` from the fixated target on. -/
def choose (s : VictimSelection R) (weight110 weight130 : R) :
    Except SelectionFault (Option RefId) :=
  match s.availableFixate with
  | some fixate => .ok (some fixate)
  | none =>
    match s.ordered with
    | [] => .ok none
    | highest :: rest =>
      if !(s.key highest).isAvailable then .ok none
      else
        match s.oldVictimRef with
        | none => .ok (some highest)
        | some old =>
          if highest = old then .ok (some highest)
          else if !s.isAbove weight110 old highest then .ok (some old)
          else if s.isAbove weight130 old highest then .ok (some highest)
          else if s.isWithinMeleeRange highest then .ok (some highest)
          else s.nextVictim weight110 old (highest :: rest)

end

end VictimSelection

/-! ### The selection of the world -/

namespace World

variable {Heap : Type} (ops : HeapOps Heap) (env : Surroundings) (w : World Heap)
  (owner : ObjectGuid)

/-- The sort key of a reference. -/
def sortKey (id : RefId) : SortKey Float32 where
  online := (w.threatRef id).online
  taunted := (w.threatRef id).taunted
  threat := (w.threatRef id).getThreat

/-- What the selection reads of the world. -/
def selection : VictimSelection Float32 where
  key := w.sortKey
  isWithinMeleeRange id := env.isWithinMeleeRange owner (w.threatRef id).victim
  fixateRef := (w.units owner).fixateRef
  currentVictimRef := (w.units owner).currentVictimRef
  ordered := ops.ordered w.threatRef (w.units owner).sortedThreatList

/-- The loop of the world is the loop over floats; a failed assertion leaves no victim. -/
theorem nextVictim_selection (old : RefId) (ids : List RefId) :
    nextVictim env w owner old ids =
      ((w.selection ops env owner).nextVictim 1.1 old ids).toOption.join := by
  induction ids with
  | nil => rfl
  | cons next rest ih =>
    have habove : (w.selection ops env owner).isAbove 1.1 old next =
        compareReferencesLT (w.threatRef old) (w.threatRef next) 1.1 := rfl
    have hmelee : (w.selection ops env owner).isWithinMeleeRange next =
        env.isWithinMeleeRange owner (w.threatRef next).victim := rfl
    rw [nextVictim, VictimSelection.nextVictim, habove, hmelee, ih]
    split
    · rfl
    split
    · rfl
    split <;> rfl

/-- The choice of the world is the choice over floats. -/
theorem chooseVictim_selection :
    w.chooseVictim ops env owner =
      ((w.selection ops env owner).choose 1.1 1.3).toOption.join := by
  have hfixate : (w.selection ops env owner).availableFixate =
      (w.units owner).fixateRef.filter fun id => (w.threatRef id).isAvailable := rfl
  have hold : (w.selection ops env owner).oldVictimRef =
      (w.units owner).currentVictimRef.filter fun id => !(w.threatRef id).isOffline := rfl
  have hordered : (w.selection ops env owner).ordered =
      ops.ordered w.threatRef (w.units owner).sortedThreatList := rfl
  have habove (weight : Float32) (old id : RefId) :
      (w.selection ops env owner).isAbove weight old id =
        compareReferencesLT (w.threatRef old) (w.threatRef id) weight := rfl
  have havailable (id : RefId) :
      ((w.selection ops env owner).key id).isAvailable = (w.threatRef id).isAvailable := rfl
  have hmelee (id : RefId) : (w.selection ops env owner).isWithinMeleeRange id =
      env.isWithinMeleeRange owner (w.threatRef id).victim := rfl
  simp only [chooseVictim, VictimSelection.choose, hfixate, hold, hordered]
  cases (w.units owner).fixateRef.filter fun id => (w.threatRef id).isAvailable with
  | some fixate => rfl
  | none =>
    cases ops.ordered w.threatRef (w.units owner).sortedThreatList with
    | nil => rfl
    | cons highest rest =>
      simp only [havailable]
      split
      · rfl
      cases (w.units owner).currentVictimRef.filter fun id => !(w.threatRef id).isOffline with
      | none => rfl
      | some old =>
        simp only [habove, hmelee, nextVictim_selection ops env w owner old]
        split
        · rfl
        split
        · rfl
        split
        · rfl
        split <;> rfl

end World

/-! ### Exact threat values -/

/-- `ThreatReference` with an exact amount of threat. -/
structure ExactReference where
  victim : ObjectGuid
  online : OnlineState := .offline
  baseAmount : ℚ := 0
  tempModifier : Int32 := 0
  taunted : UInt32 := tauntStateNone

namespace ExactReference

/-- `GetThreat`. -/
def getThreat (ref : ExactReference) : ℚ := max (ref.baseAmount + ref.tempModifier.toInt) 0

/-- `IsOffline`. -/
def isOffline (ref : ExactReference) : Bool := ref.online == .offline

/-- `IsTaunting`. -/
def isTaunting (ref : ExactReference) : Bool := decide (ref.taunted ≥ tauntStateTaunt)

/-- `ShouldBeSuppressed`. -/
def shouldBeSuppressed (env : Surroundings) (owner : ObjectGuid) (ref : ExactReference) : Bool :=
  !ref.isTaunting && env.isInopportune owner ref.victim

/-- `UpdateOffline`. -/
def updateOffline (env : Surroundings) (owner : ObjectGuid) (ref : ExactReference) :
    ExactReference :=
  let shouldBeOffline := env.shouldBeOffline owner ref.victim
  if shouldBeOffline = ref.isOffline then ref
  else if shouldBeOffline then { ref with online := .offline }
  else { ref with online := if ref.shouldBeSuppressed env owner then .suppressed else .online }

/-- What the reference is sorted by. -/
def sortKey (ref : ExactReference) : SortKey ℚ := ⟨ref.online, ref.taunted, ref.getThreat⟩

theorem getThreat_nonneg (ref : ExactReference) : 0 ≤ ref.getThreat := le_max_right _ _

/-- Only the online state changes, -/
theorem victim_updateOffline (env : Surroundings) (owner : ObjectGuid) (ref : ExactReference) :
    (ref.updateOffline env owner).victim = ref.victim := by
  simp only [updateOffline]
  split
  · rfl
  split <;> rfl

/-- and afterwards it says what it should. -/
theorem isOffline_updateOffline (env : Surroundings) (owner : ObjectGuid)
    (ref : ExactReference) :
    (ref.updateOffline env owner).isOffline = env.shouldBeOffline owner ref.victim := by
  simp only [updateOffline]
  split
  · next heq => exact heq.symm
  split
  · next hoffline => exact hoffline.symm
  · next honline =>
    rw [Bool.eq_false_of_not_eq_true honline]
    split <;> rfl

end ExactReference

/-- The order of a heap with exact keys that is kept well structured. -/
structure HeapOrder where
  ordered : (RefId → SortKey ℚ) → List RefId → List RefId
  perm : ∀ key ids, (ordered key ids).Perm ids
  /-- No reference is lower than one that comes later. -/
  sorted : ∀ key ids, (ordered key ids).Pairwise fun a b => (key a).lessThan (key b) 1 = false

/-- A threat list with exact values. -/
structure ExactThreatList where
  /-- The pointers in `_myThreatListEntries`, in the order of iteration. -/
  entries : List RefId
  ref : RefId → ExactReference
  currentVictimRef : Option RefId
  fixateRef : Option RefId
  /-- A reference that leaves the list is no longer the current victim, -/
  current_mem : ∀ id ∈ currentVictimRef, id ∈ entries
  /-- nor fixated. -/
  fixate_mem : ∀ id ∈ fixateRef, id ∈ entries

namespace ExactThreatList

variable (env : Surroundings) (heap : HeapOrder) (owner : ObjectGuid)

/-- The references after the loop over `UpdateOffline`. -/
def updateOffline (list : ExactThreatList) : ExactThreatList :=
  { list with
    ref := list.entries.foldl
      (fun ref id => update ref id ((ref id).updateOffline env owner)) list.ref }

/-- What the selection reads of the list. -/
def selection (list : ExactThreatList) : VictimSelection ℚ where
  key id := (list.ref id).sortKey
  isWithinMeleeRange id := env.isWithinMeleeRange owner (list.ref id).victim
  fixateRef := list.fixateRef
  currentVictimRef := list.currentVictimRef
  ordered := heap.ordered (fun id => (list.ref id).sortKey) list.entries

/-- `ReselectVictim`. -/
def reselectVictim (list : ExactThreatList) :
    ExactThreatList × Except SelectionFault (Option RefId) :=
  if (list.selection env heap owner).ordered.isEmpty then (list, .ok none)
  else
    let list := list.updateOffline env owner
    (list, (list.selection env heap owner).choose (11 / 10) (13 / 10))

end ExactThreatList

/-! ### The plain rule -/

/-- The rule without shortcuts: every reference is looked at. -/
def VictimSelection.plainRule (s : VictimSelection ℚ) (weight110 weight130 : ℚ) : Option RefId :=
  match s.availableFixate with
  | some fixate => some fixate
  | none =>
    if s.ordered.all fun id => !(s.key id).isAvailable then none
    else
      match s.oldVictimRef with
      | none => s.ordered.head?
      | some old =>
        if s.ordered.head? = some old then some old
        else
          some ((s.ordered.find? fun id =>
            s.isAbove weight110 old id
              && (s.isWithinMeleeRange id
                || (s.ordered.head? == some id && s.isAbove weight130 old id))).getD old)

variable {v weight weight110 weight130 : ℚ}

namespace SortKey

/-- The place of a key in the order when its threat counts with a weight. -/
def weighted (key : SortKey ℚ) (weight : ℚ) : Nat ×ₗ Nat ×ₗ ℚ :=
  toLex (key.online.toNat, toLex (key.taunted.toNat, key.threat * weight))

theorem toNat_inj {a b : OnlineState} : a.toNat = b.toNat ↔ a = b := by
  cases a <;> cases b <;> decide

theorem lessThan_iff (a b : SortKey ℚ) (aWeight : ℚ) :
    a.lessThan b aWeight = true ↔ a.weighted aWeight < b.weighted 1 := by
  simp only [lessThan, weighted, Prod.Lex.toLex_lt_toLex, mul_one]
  by_cases honline : a.online = b.online
  · by_cases htaunted : a.taunted = b.taunted
    · simp [honline, htaunted]
    · have hne : a.taunted.toNat ≠ b.taunted.toNat := fun h => htaunted (UInt32.toNat_inj.mp h)
      simp [honline, htaunted, hne, UInt32.lt_iff_toNat_lt]
  · have hne : a.online.toNat ≠ b.online.toNat := fun h => honline (toNat_inj.mp h)
    simp [honline, hne]

theorem lessThan_eq_false_iff (a b : SortKey ℚ) (aWeight : ℚ) :
    a.lessThan b aWeight = false ↔ b.weighted 1 ≤ a.weighted aWeight := by
  rw [← not_lt, ← lessThan_iff, Bool.not_eq_true]

theorem weighted_mono {key : SortKey ℚ} (hthreat : 0 ≤ key.threat) {w : ℚ} (h : v ≤ w) :
    key.weighted v ≤ key.weighted w := by
  have hmul : key.threat * v ≤ key.threat * w := mul_le_mul_of_nonneg_left h hthreat
  simp only [weighted, Prod.Lex.toLex_le_toLex, lt_self_iff_false, false_or, true_and]
  exact hmul

/-- What is not above an unavailable reference is unavailable. -/
theorem isAvailable_eq_false_of_le {a b : SortKey ℚ} {w : ℚ} (h : b.weighted v ≤ a.weighted w)
    (ha : a.isAvailable = false) : b.isAvailable = false := by
  have honline : b.online.toNat ≤ a.online.toNat := by
    rcases Prod.Lex.toLex_le_toLex.mp h with hlt | ⟨heq, -⟩
    · exact hlt.le
    · exact heq.le
  simp only [isAvailable, bne_eq_false_iff_eq] at ha ⊢
  rw [ha] at honline
  exact toNat_inj.mp (Nat.le_zero.mp honline)

end SortKey

namespace VictimSelection

variable {s : VictimSelection ℚ}

/-- The heap yields the references in order, and no threat is negative. -/
structure WellOrdered (s : VictimSelection ℚ) : Prop where
  sorted : s.ordered.Pairwise fun a b => (s.key a).lessThan (s.key b) 1 = false
  nonneg : ∀ id, 0 ≤ (s.key id).threat

theorem isAbove_iff (weight : ℚ) (old id : RefId) :
    s.isAbove weight old id = true ↔ (s.key old).weighted weight < (s.key id).weighted 1 :=
  SortKey.lessThan_iff _ _ _

/-- Nothing below a reference that stays under the old victim's weighted threat exceeds it. -/
theorem isAbove_eq_false_of_lower {old a b : RefId}
    (hlower : (s.key a).lessThan (s.key b) 1 = false) (ha : s.isAbove weight old a = false) :
    s.isAbove weight old b = false := by
  rw [← Bool.not_eq_true, isAbove_iff, not_lt] at ha ⊢
  exact ((SortKey.lessThan_eq_false_iff _ _ _).mp hlower).trans ha

/-- The old victim is not above itself. -/
theorem WellOrdered.isAbove_self (h : s.WellOrdered) (hweight : 1 ≤ weight) (old : RefId) :
    s.isAbove weight old old = false := by
  rw [← Bool.not_eq_true, isAbove_iff, not_lt]
  exact SortKey.weighted_mono (h.nonneg old) hweight

/-- Nobody from a reference on that is not above the old victim replaces it. -/
theorem find?_of_not_above {old next : RefId} {rest : List RefId}
    (hsorted : (next :: rest).Pairwise fun a b => (s.key a).lessThan (s.key b) 1 = false)
    (hnext : s.isAbove weight old next = false) (p : RefId → Bool) :
    (next :: rest).find? (fun id => s.isAbove weight old id && p id) = none := by
  rw [find?_eq_none]
  intro id hid
  have habove : s.isAbove weight old id = false := by
    rcases mem_cons.mp hid with rfl | hrest
    · exact hnext
    · exact isAbove_eq_false_of_lower ((pairwise_cons.mp hsorted).1 id hrest) hnext
  simp [habove]

/-- The loop finds the first reference in melee range above the old victim, or keeps that one:
it never runs off the end of the list. -/
theorem nextVictim_eq (h : s.WellOrdered) (hweight : 1 ≤ weight) {old : RefId} {ids : List RefId}
    (hsorted : ids.Pairwise fun a b => (s.key a).lessThan (s.key b) 1 = false) (hold : old ∈ ids) :
    s.nextVictim weight old ids = .ok (some
      ((ids.find? fun id => s.isAbove weight old id && s.isWithinMeleeRange id).getD old)) := by
  induction ids with
  | nil => nomatch hold
  | cons next rest ih =>
    unfold nextVictim
    split
    · next heq =>
      subst heq
      rw [find?_of_not_above hsorted (h.isAbove_self hweight next)]
      rfl
    next hne =>
    split
    · next habove =>
      rw [find?_of_not_above hsorted (by simpa using habove)]
      rfl
    next habove =>
    split
    · next hmelee =>
      rw [find?_cons_of_pos (by simpa [hmelee] using habove)]
      rfl
    · next hmelee =>
      rw [find?_cons_of_neg (by simp [hmelee])]
      apply ih (pairwise_cons.mp hsorted).2
      exact (mem_cons.mp hold).resolve_left (Ne.symm hne)

/-- The list is offline as a whole when its highest reference is. -/
theorem all_offline_iff {highest : RefId} {rest : List RefId}
    (hsorted : (highest :: rest).Pairwise fun a b => (s.key a).lessThan (s.key b) 1 = false) :
    ((highest :: rest).all fun id => !(s.key id).isAvailable) = !(s.key highest).isAvailable := by
  rw [all_cons]
  cases hhighest : (s.key highest).isAvailable with
  | true => rfl
  | false =>
    simp only [Bool.not_false, Bool.true_and, all_eq_true, Bool.not_eq_true']
    intro id hid
    exact SortKey.isAvailable_eq_false_of_le
      ((SortKey.lessThan_eq_false_iff _ _ _).mp ((pairwise_cons.mp hsorted).1 id hid)) hhighest

/-- The shortcuts change nothing. -/
theorem choose_eq_plainRule (h : s.WellOrdered) (hweight : 1 ≤ weight110)
    (hold : ∀ old ∈ s.currentVictimRef, old ∈ s.ordered) :
    s.choose weight110 weight130 = .ok (s.plainRule weight110 weight130) := by
  unfold choose plainRule
  cases s.availableFixate with
  | some fixate => rfl
  | none =>
    have hsorted := h.sorted
    have hmem : ∀ old ∈ s.oldVictimRef, old ∈ s.ordered :=
      fun old hcurrent => hold old (Option.mem_filter_iff.mp hcurrent).1
    cases hordered : s.ordered with
    | nil => rfl
    | cons highest rest =>
      rw [hordered] at hsorted hmem
      simp only [all_offline_iff hsorted, head?_cons, Option.some.injEq]
      split
      · rfl
      cases holdVictim : s.oldVictimRef with
      | none => rfl
      | some old =>
        simp only
        split
        · next heq => rw [heq]
        next hne =>
        split
        · next habove =>
          rw [find?_of_not_above hsorted (by simpa using habove)]
          rfl
        next habove =>
        have habove : s.isAbove weight110 old highest = true := by simpa using habove
        split
        · next habove130 =>
          rw [find?_cons_of_pos (by simp [habove, habove130])]
          rfl
        next habove130 =>
        split
        · next hmelee =>
          rw [find?_cons_of_pos (by simp [habove, hmelee])]
          rfl
        · have hsame : (fun id => s.isAbove weight110 old id && (s.isWithinMeleeRange id ||
              (some highest == some id && s.isAbove weight130 old id))) =
              fun id => s.isAbove weight110 old id && s.isWithinMeleeRange id := by
            funext id
            by_cases hid : highest = id
            · subst hid
              simp [habove130]
            · have hne : (some highest == some id) = false := by simpa using hid
              rw [hne, Bool.false_and, Bool.or_false]
          rw [hsame]
          exact nextVictim_eq h hweight hsorted (hmem old holdVictim)

end VictimSelection

namespace HeapOrder

/-- A heap that sorts when it is asked. -/
def sorting : HeapOrder where
  ordered key ids := ids.insertionSort fun a b => (key b).weighted 1 ≤ (key a).weighted 1
  perm key ids := List.perm_insertionSort _ ids
  sorted key ids := by
    have hsorted := pairwise_insertionSort
      (fun a b => (key b).weighted 1 ≤ (key a).weighted 1) ids
    exact hsorted.imp fun h => (SortKey.lessThan_eq_false_iff _ _ _).mpr h

instance : Inhabited HeapOrder := ⟨sorting⟩

end HeapOrder

namespace ExactThreatList

variable (env : Surroundings) (heap : HeapOrder) (owner : ObjectGuid) (list : ExactThreatList)

theorem wellOrdered_selection : (list.selection env heap owner).WellOrdered where
  sorted := heap.sorted _ _
  nonneg id := (list.ref id).getThreat_nonneg

theorem mem_ordered (id : RefId) :
    id ∈ (list.selection env heap owner).ordered ↔ id ∈ list.entries :=
  (heap.perm _ _).mem_iff

/-- After the update every reference on the list is offline exactly when it should be. -/
theorem isOffline_updateOffline {id : RefId} (hid : id ∈ list.entries) :
    ((list.updateOffline env owner).ref id).isOffline =
      env.shouldBeOffline owner ((list.updateOffline env owner).ref id).victim := by
  have hfold (ids : List RefId) (ref : RefId → ExactReference)
      (h : id ∈ ids ∨ (ref id).isOffline = env.shouldBeOffline owner (ref id).victim) :
      ((ids.foldl (fun ref id => update ref id ((ref id).updateOffline env owner))
        ref) id).isOffline = env.shouldBeOffline owner
          ((ids.foldl (fun ref id => update ref id ((ref id).updateOffline env owner))
            ref) id).victim := by
    induction ids generalizing ref with
    | nil => exact h.resolve_left not_mem_nil
    | cons first rest ih =>
      apply ih
      by_cases heq : id = first
      · subst heq
        right
        simp only [update_self]
        rw [ExactReference.isOffline_updateOffline, ExactReference.victim_updateOffline]
      · simp only [update_of_ne heq]
        exact h.imp_left fun hmem => (mem_cons.mp hmem).resolve_left heq
  exact hfold list.entries list.ref (.inl hid)

/-- An empty list has no references to update. -/
theorem updateOffline_of_isEmpty
    (h : (list.selection env heap owner).ordered.isEmpty = true) :
    list.updateOffline env owner = list := by
  have hperm := heap.perm (fun id => (list.ref id).sortKey) list.entries
  rw [show heap.ordered _ list.entries = [] from isEmpty_iff.mp h] at hperm
  have hentries : list.entries = [] := hperm.symm.eq_nil
  have hfold : list.entries.foldl
      (fun ref id => update ref id ((ref id).updateOffline env owner)) list.ref =
        list.ref := by
    rw [hentries, foldl_nil]
  unfold updateOffline
  rw [hfold]

end ExactThreatList

/-- What the plain rule picks is on the list and available. -/
theorem VictimSelection.available_of_plainRule {s : VictimSelection ℚ} (h : s.WellOrdered)
    (hfixate : ∀ id ∈ s.fixateRef, id ∈ s.ordered)
    (hold : ∀ old ∈ s.currentVictimRef, old ∈ s.ordered) {id : RefId}
    (hid : s.plainRule weight110 weight130 = some id) :
    id ∈ s.ordered ∧ (s.key id).isAvailable = true := by
  unfold plainRule at hid
  have hsorted := h.sorted
  cases hfixed : s.availableFixate with
  | some fixate =>
    obtain ⟨hmem, havailable⟩ := Option.filter_eq_some_iff.mp hfixed
    simp only [hfixed, Option.some.injEq] at hid
    rw [← hid]
    exact ⟨hfixate fixate hmem, havailable⟩
  | none =>
    simp only [hfixed] at hid
    split at hid
    · nomatch hid
    next hall =>
    cases hordered : s.ordered with
    | nil => simp [hordered] at hall
    | cons highest rest =>
      rw [hordered] at hall hsorted hold
      simp only [hordered, head?_cons] at hid
      rw [all_offline_iff hsorted, Bool.not_eq_true, Bool.not_eq_false'] at hall
      cases holdVictim : s.oldVictimRef with
      | none =>
        simp only [holdVictim, Option.some.injEq] at hid
        rw [← hid]
        exact ⟨mem_cons_self, hall⟩
      | some old =>
        obtain ⟨hmem, havailable⟩ := Option.filter_eq_some_iff.mp holdVictim
        simp only [holdVictim, Option.some.injEq] at hid
        split at hid
        · next heq => exact Option.some.inj hid ▸ ⟨hold old hmem, havailable⟩
        rw [Option.some.injEq, Option.getD_eq_iff] at hid
        rcases hid with hfound | ⟨-, hkept⟩
        · have habove := find?_some hfound
          rw [Bool.and_eq_true] at habove
          refine ⟨mem_of_find?_eq_some hfound, ?_⟩
          by_contra hoffline
          have hlower := ((isAbove_iff _ _ _).mp habove.1).le
          have hgone := SortKey.isAvailable_eq_false_of_le hlower
            (Bool.eq_false_of_not_eq_true hoffline)
          exact Bool.false_ne_true (hgone.symm.trans havailable)
        · exact hkept ▸ ⟨hold old hmem, havailable⟩

/-- `ReselectVictim` with exact threat values is the plain rule on the updated list: the
assertion at its end never fails, and the victim is on the list and not offline. -/
theorem reselectVictim_eq_plainRule (env : Surroundings) (heap : HeapOrder) (owner : ObjectGuid)
    (list : ExactThreatList) :
    ∃ result, list.reselectVictim env heap owner = (list.updateOffline env owner, .ok result) ∧
      result = ((list.updateOffline env owner).selection env heap owner).plainRule (11 / 10)
        (13 / 10) ∧
      ∀ id ∈ result, id ∈ list.entries ∧
        env.shouldBeOffline owner ((list.updateOffline env owner).ref id).victim = false := by
  have hwell := (list.updateOffline env owner).wellOrdered_selection env heap owner
  have hmem := (list.updateOffline env owner).mem_ordered env heap owner
  have hcurrent := fun id hid => (hmem id).mpr (list.current_mem id hid)
  have hfixate := fun id hid => (hmem id).mpr (list.fixate_mem id hid)
  refine ⟨_, ?_, rfl, ?_⟩
  · unfold ExactThreatList.reselectVictim
    split
    · next hempty =>
      have hnone : ((list.updateOffline env owner).selection env heap owner).plainRule (11 / 10)
          (13 / 10) = none := by
        rw [Option.eq_none_iff_forall_not_mem]
        intro id hid
        have hordered := (VictimSelection.available_of_plainRule hwell hfixate hcurrent hid).1
        have hentry := (list.mem_ordered env heap owner id).mpr ((hmem id).mp hordered)
        rw [List.isEmpty_iff.mp hempty] at hentry
        nomatch hentry
      rw [hnone, list.updateOffline_of_isEmpty env heap owner hempty]
    · simp only
      rw [VictimSelection.choose_eq_plainRule hwell (by norm_num) hcurrent]
  · intro id hid
    obtain ⟨hordered, havailable⟩ := VictimSelection.available_of_plainRule hwell hfixate
      hcurrent hid
    have hentry := (hmem id).mp hordered
    refine ⟨hentry, ?_⟩
    rw [← list.isOffline_updateOffline env owner hentry]
    exact beq_eq_false_iff_ne.mpr (bne_iff_ne.mp havailable)

end TrinityCore.Combat
