import Mathlib.Data.List.Perm.Basic
import TrinityCore.Lib.MultiMap

/-!
# Agendas

What a queue of things to do is for: a set of items, each with the place of its insertion, worked
off in the order of (due, insertion). When an item is due may change, and then it counts as
inserted again. A list in the order of the due times refines an agenda, when an item is put behind
all others that are due no later.
-/

open List

universe u v

/-- An item of an agenda, and how many insertions came before its own. -/
structure Planned (α : Type u) where
  item : α
  inserted : Nat
  deriving DecidableEq, Repr

/-- An agenda: its items in no particular order. -/
structure ItemAgenda (α : Type u) where
  planned : List (Planned α) := []
  insertions : Nat := 0

variable {α : Type u} {κ : Type v} [LinearOrder κ]

namespace Planned

/-- The order of (due, insertion). -/
def Before (due : α → κ) (p q : Planned α) : Prop :=
  due p.item < due q.item ∨ due p.item = due q.item ∧ p.inserted < q.inserted

instance (due : α → κ) : DecidableRel (Before due) := fun p q =>
  inferInstanceAs (Decidable
    (due p.item < due q.item ∨ due p.item = due q.item ∧ p.inserted < q.inserted))

variable {due : α → κ} {p q : Planned α}

theorem Before.due_le (h : Before due p q) : due p.item ≤ due q.item := by
  cases h with
  | inl hlt => exact le_of_lt hlt
  | inr heq => exact le_of_eq heq.1

theorem Before.asymm (h : Before due p q) : ¬Before due q p := by
  rintro (hlt | heq)
  · exact absurd h.due_le (not_le_of_gt hlt)
  · cases h with
    | inl hlt => exact absurd hlt (by rw [heq.1]; exact lt_irrefl _)
    | inr heq' => omega

theorem Before.irrefl (p : Planned α) : ¬Before due p p := fun h => h.asymm h

end Planned

namespace ItemAgenda

/-- Plan one more item. -/
def plan (a : ItemAgenda α) (x : α) : ItemAgenda α :=
  { planned := ⟨x, a.insertions⟩ :: a.planned
    insertions := a.insertions + 1 }

/-- Keep the items that satisfy `p`. -/
def keep (a : ItemAgenda α) (p : α → Bool) : ItemAgenda α :=
  { a with planned := a.planned.filter fun x => p x.item }

/-- Count the items that satisfy `p` as inserted again, in the order they had. -/
def again (due : α → κ) (a : ItemAgenda α) (p : α → Bool) : ItemAgenda α :=
  let moved := a.planned.filter fun x => p x.item
  { planned := a.planned.map fun x =>
      if p x.item then ⟨x.item, a.insertions + moved.countP fun y => y.Before due x⟩ else x
    insertions := a.insertions + moved.length }

/-- The item before all others. -/
def first [DecidableEq α] (due : α → κ) (a : ItemAgenda α) : Option (Planned α) :=
  a.planned.find? fun x => ∀ y ∈ a.planned, y = x ∨ x.Before due y

/-- Take the first item off. -/
def removeFirst [DecidableEq α] (due : α → κ) (a : ItemAgenda α) : ItemAgenda α :=
  match a.first due with
  | none => a
  | some x => { a with planned := a.planned.erase x }

/-! ### The refinement -/

/-- The list holds the items in the order of (due, insertion). -/
structure SortedAs (due : α → κ) (sorted : List (Planned α)) (a : ItemAgenda α) : Prop where
  perm : sorted.Perm a.planned
  order : sorted.Pairwise (Planned.Before due)
  inserted : ∀ x ∈ a.planned, x.inserted < a.insertions

/-- The list holds the items of the agenda in their order. -/
def Refines (due : α → κ) (l : List α) (a : ItemAgenda α) : Prop :=
  ∃ sorted, SortedAs due sorted a ∧ l = sorted.map Planned.item

variable {due due' : α → κ} {l : List α} {a : ItemAgenda α}

theorem refines_nil (due : α → κ) : Refines due [] ({} : ItemAgenda α) :=
  ⟨[], ⟨List.Perm.refl _, List.Pairwise.nil, nofun⟩, rfl⟩

theorem Refines.mem (h : Refines due l a) {x : α} :
    x ∈ l ↔ ∃ y ∈ a.planned, y.item = x := by
  obtain ⟨sorted, hsorted, rfl⟩ := h
  rw [mem_map]
  exact exists_congr fun y => and_congr_left' hsorted.perm.mem_iff

theorem Refines.pairwise (h : Refines due l a) : l.Pairwise fun x y => due x ≤ due y := by
  obtain ⟨sorted, hsorted, rfl⟩ := h
  rw [pairwise_map]
  exact hsorted.order.imp fun hbefore => hbefore.due_le

/-- The order looks at when the items of the agenda are due, and at nothing else. -/
theorem Refines.congr (h : Refines due l a) (hdue : ∀ x ∈ l, due' x = due x) :
    Refines due' l a := by
  obtain ⟨sorted, hsorted, rfl⟩ := h
  refine ⟨sorted, ⟨hsorted.perm, ?_, hsorted.inserted⟩, rfl⟩
  apply hsorted.order.imp_of_mem
  intro x y hx hy hbefore
  unfold Planned.Before
  rw [hdue x.item (mem_map_of_mem hx), hdue y.item (mem_map_of_mem hy)]
  exact hbefore

variable {sorted : List (Planned α)}

/-- An item that comes last of those due no later. -/
theorem SortedAs.plan (h : SortedAs due sorted a) (x : α) :
    SortedAs due (insertLast (fun y => due y.item) ⟨x, a.insertions⟩ sorted) (a.plan x) where
  perm := (perm_insertLast _ _ sorted).trans (h.perm.cons _)
  order := by
    apply pairwise_insertLast (fun _ _ hbefore => hbefore.due_le) _ _ h.order
    · intro y hy hle
      have hinserted := h.inserted y (h.perm.mem_iff.mp hy)
      cases lt_or_eq_of_le hle with
      | inl hlt => exact .inl hlt
      | inr heq => exact .inr ⟨heq, hinserted⟩
    · exact fun y _ hlt => .inl hlt
  inserted y hy := by
    cases mem_cons.mp hy with
    | inl heq =>
      rw [heq]
      exact Nat.lt_succ_self _
    | inr hmem => exact Nat.lt_succ_of_lt (h.inserted y hmem)

theorem Refines.plan (h : Refines due l a) (x : α) :
    Refines due (insertLast due x l) (a.plan x) := by
  obtain ⟨sorted, hsorted, rfl⟩ := h
  have hmap : (insertLast (fun y : Planned α => due y.item) ⟨x, a.insertions⟩ sorted).map
      Planned.item = insertLast due x (sorted.map Planned.item) :=
    map_insertLast (fun _ => rfl) sorted
  exact ⟨_, hsorted.plan x, hmap.symm⟩

theorem Refines.keep (h : Refines due l a) (p : α → Bool) :
    Refines due (l.filter p) (a.keep p) := by
  obtain ⟨sorted, hsorted, rfl⟩ := h
  refine ⟨sorted.filter fun x => p x.item, ⟨hsorted.perm.filter _, hsorted.order.filter _,
    fun x hx => hsorted.inserted x (mem_of_mem_filter hx)⟩, ?_⟩
  rw [filter_map]
  rfl

/-- The first of the list is the first of the agenda. -/
theorem SortedAs.first_eq [DecidableEq α] {x : Planned α} (h : SortedAs due (x :: sorted) a) :
    a.first due = some x := by
  obtain ⟨hfirst, hrest⟩ := pairwise_cons.mp h.order
  have hleast : ∀ y ∈ a.planned, y = x ∨ x.Before due y := by
    intro y hy
    cases mem_cons.mp (h.perm.mem_iff.mpr hy) with
    | inl heq => exact .inl heq
    | inr hmem => exact .inr (hfirst y hmem)
  unfold first
  cases hfind : a.planned.find? fun x => ∀ y ∈ a.planned, y = x ∨ x.Before due y with
  | none =>
    rw [find?_eq_none] at hfind
    have hmem : x ∈ a.planned := h.perm.mem_iff.mp mem_cons_self
    exact absurd (decide_eq_true hleast) (hfind x hmem)
  | some y =>
    have hsome := find?_some hfind
    have hy := of_decide_eq_true hsome
    have hmem : x ∈ a.planned := h.perm.mem_iff.mp mem_cons_self
    cases hy x hmem with
    | inl heq => rw [heq]
    | inr hbefore =>
      cases hleast y (mem_of_find?_eq_some hfind) with
      | inl heq => rw [heq]
      | inr hbefore' => exact absurd hbefore' hbefore.asymm

theorem Refines.first [DecidableEq α] (h : Refines due l a) :
    (a.first due).map Planned.item = l.head? := by
  obtain ⟨sorted, hsorted, rfl⟩ := h
  cases sorted with
  | nil =>
    have hnil : a.planned = [] := nil_perm.mp hsorted.perm
    unfold ItemAgenda.first
    rw [hnil]
    rfl
  | cons x sorted =>
    rw [hsorted.first_eq]
    rfl

theorem Refines.removeFirst [DecidableEq α] (h : Refines due l a) :
    Refines due l.tail (a.removeFirst due) := by
  obtain ⟨sorted, hsorted, rfl⟩ := h
  unfold ItemAgenda.removeFirst
  cases sorted with
  | nil =>
    have hnil : a.first due = none := by
      have hfirst := Refines.first ⟨[], hsorted, rfl⟩
      simpa using hfirst
    rw [hnil]
    exact ⟨[], hsorted, rfl⟩
  | cons x sorted =>
    rw [hsorted.first_eq]
    refine ⟨sorted, ⟨?_, (pairwise_cons.mp hsorted.order).2,
      fun y hy => hsorted.inserted y (mem_of_mem_erase hy)⟩, rfl⟩
    have herase := hsorted.perm.erase x
    rwa [erase_cons_head] at herase

/-! ### Items that are inserted again -/

/-- In a sorted list as many items are before one as its place says. -/
theorem countP_before (h : sorted.Pairwise (Planned.Before due))
    (i : Nat) (hi : i < sorted.length) :
    sorted.countP (fun y => y.Before due sorted[i]) = i := by
  induction sorted generalizing i with
  | nil => exact absurd hi (Nat.not_lt_zero i)
  | cons x sorted ih =>
    obtain ⟨hfirst, hrest⟩ := pairwise_cons.mp h
    cases i with
    | zero =>
      rw [countP_eq_zero]
      intro y hy hbefore
      have hbefore' := of_decide_eq_true hbefore
      cases mem_cons.mp hy with
      | inl heq => exact Planned.Before.irrefl x (heq ▸ hbefore')
      | inr hmem => exact (hfirst y hmem).asymm hbefore'
    | succ i =>
      have hlt : i < sorted.length := Nat.lt_of_succ_lt_succ hi
      rw [getElem_cons_succ, countP_cons, ih hrest i hlt,
        if_pos (decide_eq_true (hfirst _ (getElem_mem hlt)))]

/-- Number items from some number on. -/
def renumber (n : Nat) : List (Planned α) → List (Planned α)
  | [] => []
  | x :: rest => ⟨x.item, n⟩ :: renumber (n + 1) rest

theorem map_item_renumber (n : Nat) (xs : List (Planned α)) :
    (renumber n xs).map Planned.item = xs.map Planned.item := by
  induction xs generalizing n with
  | nil => rfl
  | cons x xs ih => exact congrArg (x.item :: ·) (ih (n + 1))

/-- Items planned one after the other. -/
theorem SortedAs.planAll (h : SortedAs due sorted a) (xs : List (Planned α)) :
    SortedAs due
      (insertAllLast (fun y => due y.item) (renumber a.insertions xs) sorted)
      { planned := (renumber a.insertions xs).reverse ++ a.planned
        insertions := a.insertions + xs.length } := by
  induction xs generalizing sorted a with
  | nil => exact h
  | cons x xs ih =>
    have hnext := ih (h.plan x.item)
    have hplanned : (renumber (a.insertions + 1) xs).reverse ++ (a.plan x.item).planned =
        (renumber a.insertions (x :: xs)).reverse ++ a.planned := by
      rw [renumber, reverse_cons, append_assoc]
      rfl
    have hinsertions : (a.plan x.item).insertions + xs.length =
        a.insertions + (x :: xs).length := by
      rw [length_cons]
      show a.insertions + 1 + xs.length = _
      omega
    have hplan : (a.plan x.item).insertions = a.insertions + 1 := rfl
    rw [hinsertions, hplan, hplanned] at hnext
    exact hnext

/-- The items that are moved, in the numbers that they get. -/
theorem map_again_eq_renumber (h : sorted.Pairwise (Planned.Before due)) (n : Nat) :
    sorted.map (fun x => (⟨x.item, n + sorted.countP fun y => y.Before due x⟩ : Planned α)) =
      renumber n sorted := by
  have hgeneral : ∀ (xs : List (Planned α)) (count : Planned α → Nat) (m : Nat),
      (∀ i (hi : i < xs.length), count xs[i] = m + i) →
        xs.map (fun x => (⟨x.item, n + count x⟩ : Planned α)) = renumber (n + m) xs := by
    intro xs
    induction xs with
    | nil => exact fun _ _ _ => rfl
    | cons x xs ih =>
      intro count m hcount
      have hx : count x = m := hcount 0 (Nat.succ_pos _)
      have hrest := ih count (m + 1) fun i hi => by
        have hsucc := hcount (i + 1) (Nat.succ_lt_succ hi)
        rw [getElem_cons_succ] at hsucc
        omega
      rw [map_cons, hrest, hx]
      rfl
  have hplaces := hgeneral sorted (fun x => sorted.countP fun y => y.Before due x) 0 fun i hi => by
    rw [countP_before h i hi]
    omega
  rwa [Nat.add_zero] at hplaces

/-- Items that are taken out and put in again one after the other, due another time. -/
theorem Refines.again (h : Refines due l a) (p : α → Bool)
    (hdue : ∀ x ∈ l, p x = false → due' x = due x) :
    Refines due' (insertAllLast due' (l.filter p) (l.filter fun x => !p x))
      (a.again due p) := by
  have hkept := (h.keep fun x => !p x).congr fun x hx => by
    have hnot : p x = false := by simpa using (mem_filter.mp hx).2
    exact hdue x (mem_of_mem_filter hx) hnot
  obtain ⟨sorted, hsorted, rfl⟩ := h
  obtain ⟨rest, hrest, hitems⟩ := hkept
  obtain ⟨moved, hmoved⟩ : ∃ moved, moved = sorted.filter fun x => p x.item := ⟨_, rfl⟩
  have hmovedPerm : moved.Perm (a.planned.filter fun x => p x.item) := by
    rw [hmoved]
    exact hsorted.perm.filter _
  have hmovedOrder : moved.Pairwise (Planned.Before due) := by
    rw [hmoved]
    exact hsorted.order.filter _
  have hall := hrest.planAll moved
  have hperm : ((renumber a.insertions moved).reverse ++
      a.planned.filter fun x => !p x.item).Perm (a.again due p).planned := by
    -- The items are those moved, renumbered, and those kept.
    have hcount : ∀ x, (a.planned.filter fun x => p x.item).countP (fun y => y.Before due x) =
        moved.countP fun y => y.Before due x := fun x => hmovedPerm.symm.countP_eq _
    have hagain : (a.again due p).planned = a.planned.map fun x =>
        if p x.item then ⟨x.item, a.insertions + moved.countP fun y => y.Before due x⟩ else x := by
      unfold ItemAgenda.again
      dsimp only
      simp only [hcount]
    have hsplit : (a.planned.filter (fun x => p x.item) ++
        a.planned.filter fun x => !p x.item).Perm a.planned :=
      filter_append_perm (fun x : Planned α => p x.item) a.planned
    have hmap := hsplit.map fun x =>
      if p x.item then (⟨x.item, a.insertions + moved.countP fun y => y.Before due x⟩ : Planned α)
        else x
    have hfst : (a.planned.filter fun x => p x.item).map (fun x =>
        if p x.item then (⟨x.item, a.insertions + moved.countP fun y => y.Before due x⟩ :
          Planned α) else x) =
        (a.planned.filter fun x => p x.item).map fun x =>
          (⟨x.item, a.insertions + moved.countP fun y => y.Before due x⟩ : Planned α) := by
      apply map_congr_left
      intro x hx
      rw [if_pos (mem_filter.mp hx).2]
    have hsnd : (a.planned.filter fun x => !p x.item).map (fun x =>
        if p x.item then (⟨x.item, a.insertions + moved.countP fun y => y.Before due x⟩ :
          Planned α) else x) = a.planned.filter fun x => !p x.item := by
      conv_rhs => rw [← map_id (a.planned.filter fun x => !p x.item)]
      apply map_congr_left
      intro x hx
      have hnot : p x.item = false := by simpa using (mem_filter.mp hx).2
      rw [if_neg (by rw [hnot]; exact Bool.false_ne_true)]
      rfl
    rw [map_append, hfst, hsnd] at hmap
    rw [hagain]
    refine List.Perm.trans ?_ hmap
    apply List.Perm.append_right
    refine (reverse_perm _).trans ?_
    show (renumber a.insertions moved).Perm _
    rw [← map_again_eq_renumber hmovedOrder]
    exact hmovedPerm.map _
  refine ⟨_, ⟨hall.perm.trans hperm, hall.order, fun x hx => ?_⟩, ?_⟩
  · have hlength : (a.planned.filter fun x => p x.item).length = moved.length :=
      hmovedPerm.length_eq.symm
    have hinserted := hall.inserted x (hperm.mem_iff.mpr hx)
    unfold ItemAgenda.again
    dsimp only
    rw [hlength]
    exact hinserted
  · have hmap : (sorted.map Planned.item).filter p = moved.map Planned.item := by
      rw [hmoved, filter_map]
      rfl
    rw [map_insertAllLast fun _ => rfl, map_item_renumber, ← hitems, hmap]

end ItemAgenda
