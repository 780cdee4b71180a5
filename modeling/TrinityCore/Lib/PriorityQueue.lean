import Mathlib.Data.List.Sort

/-!
# Priority queues over a comparison

A queue with a `less` comparison in the manner of `std::priority_queue`: the top is an
element no other one is greater than. The elements are held in the order in which they
are popped, and the structure carries the proof of that order, so the operations cannot
lose it. Which of two equivalent elements comes first is not fixed by the documented
behaviour; under a comparison that never ties there is no such choice.
-/

universe u

variable {α : Type u}

/-- A strict weak order given by a decision procedure: what sorted containers ask of
their comparison. -/
class StrictWeakOrder (less : α → α → Bool) : Prop where
  asymm : ∀ a b, less a b = true → less b a = false
  negTrans : ∀ a b c, less a b = false → less b c = false → less a c = false

/-- `a` need not wait for `b`: it is not less. -/
def NotLess (less : α → α → Bool) (a b : α) : Prop := less a b = false

instance (less : α → α → Bool) : DecidableRel (NotLess less) := fun a b =>
  inferInstanceAs (Decidable (less a b = false))

instance (less : α → α → Bool) [StrictWeakOrder less] : Std.Total (NotLess less) where
  total a b := by
    cases h : less a b with
    | false => exact .inl h
    | true => exact .inr (StrictWeakOrder.asymm a b h)

instance (less : α → α → Bool) [StrictWeakOrder less] : IsTrans α (NotLess less) where
  trans := StrictWeakOrder.negTrans

/-- Elements in popping order, each not less than those after it. -/
structure PriorityQueue (less : α → α → Bool) where
  items : List α
  ordered : items.Pairwise (NotLess less)

namespace PriorityQueue

open List

variable {less : α → α → Bool}

/-- The queue without elements. -/
def empty : PriorityQueue less := ⟨[], List.Pairwise.nil⟩

/-- `empty()`. -/
def isEmpty (q : PriorityQueue less) : Bool := q.items.isEmpty

/-- `size()`. -/
def size (q : PriorityQueue less) : Nat := q.items.length

/-- `top()`, absent on an empty queue. -/
def top? (q : PriorityQueue less) : Option α := q.items.head?

/-- `pop()`. -/
def pop (q : PriorityQueue less) : PriorityQueue less := ⟨q.items.tail, q.ordered.tail⟩

/-- `push()`. -/
def push [StrictWeakOrder less] (q : PriorityQueue less) (a : α) : PriorityQueue less :=
  ⟨q.items.orderedInsert (NotLess less) a, q.ordered.orderedInsert a q.items⟩

/-- Push every element of a list in turn. -/
def pushAll [StrictWeakOrder less] (q : PriorityQueue less) (as : List α) :
    PriorityQueue less := as.foldl push q

/-- Pop while the top satisfies `p`. -/
def popWhile (p : α → Bool) (q : PriorityQueue less) : PriorityQueue less :=
  ⟨q.items.dropWhile p, q.ordered.sublist (dropWhile_sublist p)⟩

@[simp] theorem items_empty : (empty : PriorityQueue less).items = [] := rfl

/-- Pushing adds exactly the pushed element. -/
theorem push_perm [StrictWeakOrder less] (q : PriorityQueue less) (a : α) :
    (q.push a).items.Perm (a :: q.items) := perm_orderedInsert _ a q.items

/-- Pushing a list adds exactly its elements. -/
theorem pushAll_perm [StrictWeakOrder less] (q : PriorityQueue less) (as : List α) :
    (q.pushAll as).items.Perm (as ++ q.items) := by
  induction as generalizing q with
  | nil => exact List.Perm.refl _
  | cons a as ih =>
    refine (ih (q.push a)).trans ?_
    exact ((q.push_perm a).append_left as).trans perm_middle

variable {q : PriorityQueue less}

/-- The top is an element that no element of the queue is greater than. -/
theorem top?_greatest {a : α} (h : q.top? = some a) :
    a ∈ q.items ∧ ∀ b ∈ q.items, b = a ∨ less a b = false := by
  obtain ⟨items, ordered⟩ := q
  cases items with
  | nil => simp [top?] at h
  | cons x rest =>
    obtain rfl : x = a := by simpa [top?] using h
    refine ⟨mem_cons_self, fun b hb => ?_⟩
    rcases mem_cons.mp hb with rfl | hb
    · exact .inl rfl
    · exact .inr ((pairwise_cons.mp ordered).1 b hb)

/-- There is a top unless the queue is empty. -/
theorem top?_eq_none_iff : q.top? = none ↔ q.items = [] := head?_eq_none_iff

/-- A queue with a top is that top followed by what is left after `pop`. -/
theorem items_of_top? {a : α} (h : q.top? = some a) : q.items = a :: q.pop.items := by
  obtain ⟨items, ordered⟩ := q
  cases items with
  | nil => simp [top?] at h
  | cons x rest =>
    obtain rfl : x = a := by simpa [top?] using h
    rfl

/-- What `popWhile` leaves on top fails the predicate. -/
theorem top?_popWhile {p : α → Bool} {a : α} (h : (q.popWhile p).top? = some a) : p a = false := by
  have hd := head?_dropWhile_not p q.items
  change (q.items.dropWhile p).head? = some a at h
  rw [h] at hd
  exact hd

/-- Elements that fail the predicate all survive `popWhile`. -/
theorem filter_popWhile (p : α → Bool) (q : PriorityQueue less) :
    (q.popWhile p).items.filter (fun a => !p a) = q.items.filter (fun a => !p a) := by
  change (q.items.dropWhile p).filter _ = _
  induction q.items with
  | nil => rfl
  | cons a rest ih =>
    cases hp : p a with
    | true => simp [hp, ih]
    | false => simp [hp]

end PriorityQueue
