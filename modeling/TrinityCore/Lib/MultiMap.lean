import Mathlib.Data.List.Sort

/-!
# Multimaps over an ordered key

A `std::multimap`: pairs in the order of their keys, those of one key in the order of their
insertion. The structure carries the proof of the order of the keys; that pairs of one key stay
in the order of their insertion is the lemma `pairwise_insertLast`.
-/

open List

universe u v w

variable {κ : Type u} [LinearOrder κ] {α : Type v} {β : Type w}

/-! ### Insertion behind the equals -/

/-- Insert `x` behind all elements whose key is not greater. -/
def insertLast (key : β → κ) (x : β) : List β → List β
  | [] => [x]
  | y :: rest => if key y ≤ key x then y :: insertLast key x rest else x :: y :: rest

section

variable {key : β → κ} {x : β}

theorem perm_insertLast (key : β → κ) (x : β) (l : List β) :
    (insertLast key x l).Perm (x :: l) := by
  induction l with
  | nil => exact List.Perm.refl _
  | cons y rest ih =>
    rw [insertLast]
    split
    · exact (ih.cons y).trans (List.Perm.swap x y rest)
    · exact List.Perm.refl _

variable {l rest xs : List β}

theorem mem_insertLast {y : β} : y ∈ insertLast key x l ↔ y = x ∨ y ∈ l := by
  rw [(perm_insertLast key x l).mem_iff, mem_cons]

/-- An order that refines the keys is kept, when it puts `x` behind its equals. -/
theorem pairwise_insertLast {r : β → β → Prop} (hkey : ∀ a b, r a b → key a ≤ key b)
    (hbehind : ∀ y ∈ l, key y ≤ key x → r y x) (hbefore : ∀ y ∈ l, key x < key y → r x y)
    (h : l.Pairwise r) : (insertLast key x l).Pairwise r := by
  induction l with
  | nil => exact pairwise_singleton r x
  | cons y rest ih =>
    obtain ⟨hy, hrest⟩ := pairwise_cons.mp h
    rw [insertLast]
    split
    · rename_i hle
      apply List.Pairwise.cons
      · intro z hz
        cases mem_insertLast.mp hz with
        | inl heq => exact heq ▸ hbehind y mem_cons_self hle
        | inr hmem => exact hy z hmem
      · exact ih (fun z hz => hbehind z (mem_cons_of_mem _ hz))
          (fun z hz => hbefore z (mem_cons_of_mem _ hz)) hrest
    · rename_i hlt
      apply List.Pairwise.cons _ h
      intro z hz
      apply hbefore z hz
      cases mem_cons.mp hz with
      | inl heq => exact heq ▸ lt_of_not_ge hlt
      | inr hmem => exact lt_of_lt_of_le (lt_of_not_ge hlt) (hkey y z (hy z hmem))

/-- What does not look at more than the keys commutes with an insertion. -/
theorem map_insertLast {γ : Type v} {key' : γ → κ} {f : β → γ} (hkey : ∀ y, key' (f y) = key y)
    (l : List β) : (insertLast key x l).map f = insertLast key' (f x) (l.map f) := by
  induction l with
  | nil => rfl
  | cons y rest ih =>
    rw [insertLast, map_cons, insertLast, hkey, hkey]
    split
    · rw [map_cons, ih]
    · rfl

/-- Behind elements whose keys are not greater is the end. -/
theorem insertLast_eq_append (h : ∀ y ∈ l, key y ≤ key x) : insertLast key x l = l ++ [x] := by
  induction l with
  | nil => rfl
  | cons y rest ih =>
    rw [insertLast, if_pos (h y mem_cons_self), ih fun z hz => h z (mem_cons_of_mem _ hz)]
    rfl

/-- An element that goes before the second part goes into the first. -/
theorem insertLast_append_of_lt {y : β} (h : key x < key y) :
    insertLast key x (l ++ y :: rest) = insertLast key x l ++ y :: rest := by
  induction l with
  | nil => exact if_neg (not_le_of_gt h)
  | cons z l ih =>
    rw [cons_append, insertLast, insertLast, ih]
    split <;> rfl

/-- An element that goes behind the first part goes into the second. -/
theorem insertLast_append_of_le (h : ∀ y ∈ l, key y ≤ key x) :
    insertLast key x (l ++ rest) = l ++ insertLast key x rest := by
  induction l with
  | nil => rfl
  | cons z l ih =>
    rw [cons_append, insertLast, if_pos (h z mem_cons_self),
      ih fun y hy => h y (mem_cons_of_mem _ hy)]
    rfl

end

/-- Insert element after element. -/
def insertAllLast (key : β → κ) (xs l : List β) : List β :=
  xs.foldl (fun l x => insertLast key x l) l

section

variable {key : β → κ}

theorem perm_insertAllLast (key : β → κ) (xs l : List β) :
    (insertAllLast key xs l).Perm (xs ++ l) := by
  induction xs generalizing l with
  | nil => exact List.Perm.refl _
  | cons x xs ih =>
    refine (ih (insertLast key x l)).trans ?_
    exact ((perm_insertLast key x l).append_left xs).trans perm_middle

/-- The order is kept by elements in order, each behind its equals. -/
theorem pairwise_insertAllLast {r : β → β → Prop} (hkey : ∀ a b, r a b → key a ≤ key b)
    (hbefore : ∀ a b, key a < key b → r a b) (hbehind : ∀ x ∈ xs, ∀ y ∈ l, key y ≤ key x → r y x)
    (hxs : xs.Pairwise r) (hl : l.Pairwise r) : (insertAllLast key xs l).Pairwise r := by
  induction xs generalizing l with
  | nil => exact hl
  | cons x xs ih =>
    obtain ⟨hx, hrest⟩ := pairwise_cons.mp hxs
    apply ih _ hrest (pairwise_insertLast hkey (hbehind x mem_cons_self)
      (fun y _ => hbefore x y) hl)
    intro z hz y hy hle
    cases mem_insertLast.mp hy with
    | inl heq => exact heq ▸ hx z hz
    | inr hmem => exact hbehind z (mem_cons_of_mem _ hz) y hmem hle

theorem map_insertAllLast {γ : Type v} {key' : γ → κ} {f : β → γ}
    (hkey : ∀ y, key' (f y) = key y) (xs l : List β) :
    (insertAllLast key xs l).map f = insertAllLast key' (xs.map f) (l.map f) := by
  induction xs generalizing l with
  | nil => rfl
  | cons x xs ih =>
    show (insertAllLast key xs (insertLast key x l)).map f =
      insertAllLast key' (xs.map f) (insertLast key' (f x) (l.map f))
    rw [ih, map_insertLast hkey]

/-- Elements in the order of their keys stay in it. -/
theorem insertAllLast_eq_append (h : (l ++ xs).Pairwise fun x y => key x ≤ key y) :
    insertAllLast key xs l = l ++ xs := by
  induction xs generalizing l with
  | nil => exact (append_nil l).symm
  | cons x xs ih =>
    have hend : insertLast key x l = l ++ [x] := by
      apply insertLast_eq_append
      intro y hy
      exact (pairwise_append.mp h).2.2 y hy x mem_cons_self
    show insertAllLast key xs (insertLast key x l) = _
    rw [hend, ih, append_assoc, singleton_append]
    rw [append_assoc, singleton_append]
    exact h

end

/-! ### Multimaps -/

/-- `std::multimap`. -/
structure MultiMap (κ : Type u) [LinearOrder κ] (α : Type v) where
  items : List (κ × α)
  ordered : items.Pairwise fun x y => x.1 ≤ y.1

namespace MultiMap

/-- The map without pairs. -/
def empty : MultiMap κ α := ⟨[], List.Pairwise.nil⟩

/-- `*begin()`, absent on an empty map. -/
def begin? (m : MultiMap κ α) : Option (κ × α) := m.items.head?

/-- `erase(begin())`. -/
def eraseBegin (m : MultiMap κ α) : MultiMap κ α := ⟨m.items.tail, m.ordered.tail⟩

/-- `insert`. -/
def insert (m : MultiMap κ α) (x : κ × α) : MultiMap κ α :=
  ⟨insertLast Prod.fst x m.items,
    pairwise_insertLast (fun _ _ h => h) (fun _ _ h => h) (fun _ _ h => le_of_lt h) m.ordered⟩

/-- Insert pair after pair. -/
def insertAll (m : MultiMap κ α) (xs : List (κ × α)) : MultiMap κ α := xs.foldl insert m

/-- Erase the pairs that fail `p`. -/
def filter (p : κ × α → Bool) (m : MultiMap κ α) : MultiMap κ α :=
  ⟨m.items.filter p, m.ordered.filter p⟩

/-- Erase the first pair that meets `p`. -/
def eraseFirst (p : κ × α → Bool) (m : MultiMap κ α) : MultiMap κ α :=
  ⟨m.items.eraseP p, m.ordered.sublist List.eraseP_sublist⟩

/-- Change the first value in place. -/
def modifyBegin (f : α → α) (m : MultiMap κ α) : MultiMap κ α :=
  ⟨m.items.modifyHead fun x => (x.1, f x.2), by
    have hordered := m.ordered
    cases hitems : m.items with
    | nil => exact List.Pairwise.nil
    | cons x rest =>
      rw [hitems] at hordered
      exact pairwise_cons.mpr (pairwise_cons.mp hordered)⟩

@[simp] theorem items_empty : (empty : MultiMap κ α).items = [] := rfl

variable (m : MultiMap κ α)

@[simp] theorem items_insert (x : κ × α) : (m.insert x).items = insertLast Prod.fst x m.items := rfl

@[simp] theorem items_filter (p : κ × α → Bool) (m : MultiMap κ α) :
    (m.filter p).items = m.items.filter p := rfl

@[simp] theorem items_eraseBegin : m.eraseBegin.items = m.items.tail := rfl

@[simp] theorem items_eraseFirst (p : κ × α → Bool) (m : MultiMap κ α) :
    (m.eraseFirst p).items = m.items.eraseP p := rfl

@[simp] theorem items_modifyBegin (f : α → α) (m : MultiMap κ α) :
    (m.modifyBegin f).items = m.items.modifyHead fun x => (x.1, f x.2) := rfl

theorem perm_insert (x : κ × α) : (m.insert x).items.Perm (x :: m.items) :=
  perm_insertLast Prod.fst x m.items

/-- The pair that `eraseFirst` erases is the one that a search finds. -/
theorem perm_eraseFirst {p : κ × α → Bool} {m : MultiMap κ α} {x : κ × α}
    (h : m.items.find? p = some x) : m.items.Perm (x :: (m.eraseFirst p).items) := by
  rw [items_eraseFirst]
  generalize m.items = items at h
  induction items with
  | nil => contradiction
  | cons y rest ih =>
    rw [find?_cons] at h
    cases hy : p y with
    | true =>
      rw [hy] at h
      rw [eraseP_cons_of_pos hy, Option.some.inj h]
    | false =>
      rw [hy] at h
      rw [eraseP_cons_of_neg (by simp [hy])]
      exact ((ih h).cons y).trans (List.Perm.swap x y _)

/-- A pair that does not go before the first one leaves it there. -/
theorem insert_of_le {m : MultiMap κ α} {x y : κ × α} {rest : List (κ × α)}
    (hitems : m.items = y :: rest) (hle : y.1 ≤ x.1) :
    (m.insert x).items = y :: insertLast Prod.fst x rest := by
  rw [items_insert, hitems]
  exact if_pos hle

theorem items_insertAll (xs : List (κ × α)) :
    (m.insertAll xs).items = insertAllLast Prod.fst xs m.items := by
  induction xs generalizing m with
  | nil => rfl
  | cons x xs ih => exact ih (m.insert x)

end MultiMap
