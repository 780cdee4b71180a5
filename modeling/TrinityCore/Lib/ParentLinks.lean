import Mathlib.Data.Finset.Card

/-!
# Parent links

A partial function that leads from an element to its parent. The links from an element come to
an end unless they run into a cycle, and fewer links never lead further. Without cycles no path
visits an element twice, so that a finite number of elements bounds its length.
-/

namespace ParentLinks

universe u

open Relation

variable {α : Type u} {up up' : α → Option α} {x : α}

def Link (up : α → Option α) (child parent : α) : Prop := up child = some parent

/-- An element is above itself by no path. -/
def Acyclic (up : α → Option α) : Prop := ∀ x, ¬ TransGen (Link up) x x

/-- The path up from an element ends. -/
def Rooted (up : α → Option α) (x : α) : Prop := Acc (fun parent child => Link up child parent) x

theorem Rooted.of_parents (h : ∀ parent, Link up x parent → Rooted up parent) : Rooted up x :=
  Acc.intro x h

theorem rooted_of_none (h : up x = none) : Rooted up x := by
  apply Rooted.of_parents
  intro parent hlink
  rw [Link, h] at hlink
  cases hlink

/-- Fewer links lead to an end sooner. -/
theorem Rooted.mono (h : Rooted up x) (hsub : ∀ child parent, Link up' child parent →
    Link up child parent) : Rooted up' x := by
  induction h with
  | intro x _ ih => exact Rooted.of_parents fun parent hlink => ih parent (hsub x parent hlink)

theorem acyclic_of_rooted (h : ∀ x, Rooted up x) : Acyclic up := by
  intro x hcycle
  have hwf : WellFounded fun parent child => Link up child parent := ⟨h⟩
  have hback := transGen_swap.mp hcycle
  exact hwf.transGen.asymmetric x x hback hback

/-! ### Paths down -/

/-- Each element is a child of the one before. -/
def IsPathDown (up : α → Option α) (path : List α) : Prop :=
  path.IsChain fun parent child => Link up child parent

theorem IsPathDown.nodup (hacyclic : Acyclic up) {path : List α} (h : IsPathDown up path) :
    path.Nodup := by
  have hpaths : path.IsChain (TransGen fun parent child => Link up child parent) :=
    h.imp fun _ _ => TransGen.single
  apply hpaths.pairwise.imp
  rintro a b hpath rfl
  exact hacyclic a (transGen_swap.mp hpath)

variable {children : Finset α}

theorem IsPathDown.mem_children
    (hchildren : ∀ child parent, Link up child parent → child ∈ children) {top : α} {below : List α}
    (h : IsPathDown up (top :: below)) : ∀ child ∈ below, child ∈ children := by
  induction below generalizing top with
  | nil => simp
  | cons child below ih =>
    have hlink := List.isChain_cons_cons.mp h
    exact List.forall_mem_cons.mpr ⟨hchildren child top hlink.1, ih hlink.2⟩

/-- A path down is no longer than there are children. -/
theorem IsPathDown.length_le [DecidableEq α] (hacyclic : Acyclic up)
    (hchildren : ∀ child parent, Link up child parent → child ∈ children) {top : α} {below : List α}
    (h : IsPathDown up (top :: below)) : below.length ≤ children.card := by
  have hnodup : below.Nodup := (List.nodup_cons.mp (h.nodup hacyclic)).2
  rw [← List.toFinset_card_of_nodup hnodup]
  apply Finset.card_le_card
  intro child hchild
  exact h.mem_children hchildren child (List.mem_toFinset.mp hchild)

/-! ### Ranks -/

/-- Without cycles an element can have a smaller rank than its parent. -/
theorem exists_rank (hacyclic : Acyclic up)
    (hchildren : ∀ child parent, Link up child parent → child ∈ children) :
    ∃ rank : α → ℕ, ∀ child parent, Link up child parent → rank child < rank parent := by
  classical
  -- the rank is the number of elements below
  refine ⟨fun x => (children.filter fun below => TransGen (Link up) below x).card, ?_⟩
  intro child parent hlink
  apply Finset.card_lt_card
  apply Finset.ssubset_iff_of_subset ?_ |>.mpr
  · refine ⟨child, ?_, ?_⟩
    · exact Finset.mem_filter.mpr ⟨hchildren child parent hlink, TransGen.single hlink⟩
    · intro hmem
      exact hacyclic child (Finset.mem_filter.mp hmem).2
  · intro below hbelow
    obtain ⟨hchild, hpath⟩ := Finset.mem_filter.mp hbelow
    exact Finset.mem_filter.mpr ⟨hchild, hpath.tail hlink⟩

end ParentLinks
