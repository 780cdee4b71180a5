import Mathlib.Data.List.Basic
import Mathlib.Data.Set.Basic
import TrinityCore.Lib.LowerBound
import TrinityCore.Lib.StateMachine

/-!
# Flat sets

`FlatSet.h`: a set of keys that is stored as a vector, sorted by a comparator. The comparator is
a strict weak order, so keys that neither comes before the other count as one; what the set is
for is told by the set of all keys that it counts as its own.
-/

universe u

namespace TrinityCore.Containers

open List

open LowerBound StateMachine

/-- `FlatSet`. -/
structure FlatSet (Key : Type u) where
  storage : List Key := []
  deriving DecidableEq, Repr

namespace FlatSet

variable {Key : Type u} (compare : Key → Key → Prop)

section

variable [DecidableRel compare]

/-- `find`, with no position for the end. -/
def find (s : FlatSet Key) (value : Key) : Option Nat :=
  let itr := lowerBound compare s.storage value
  match s.storage[itr]? with
  | none => none
  | some key => if compare value key then none else some itr

/-- `emplace`: the set after it, the position of the key and whether it is a new one. -/
def emplace (s : FlatSet Key) (newElement : Key) : FlatSet Key × Nat × Bool :=
  let itr := lowerBound compare s.storage newElement
  if s.storage[itr]?.any fun key => !decide (compare newElement key) then (s, itr, false)
  else (⟨s.storage.insertIdx itr newElement⟩, itr, true)

/-- `insert`. -/
def insert (s : FlatSet Key) (key : Key) : FlatSet Key × Nat × Bool := s.emplace compare key

/-- `erase` of a key: the set after it and how many keys it erased. -/
def erase (s : FlatSet Key) (key : Key) : FlatSet Key × Nat :=
  match s.find compare key with
  | none => (s, 0)
  | some itr => (⟨s.storage.eraseIdx itr⟩, 1)

/-- `clear`. -/
def clear (_ : FlatSet Key) : FlatSet Key := {}

end

end FlatSet

/-- What changes a flat set; `emplace` is an insertion of the key that it makes. -/
inductive FlatSetOperation (Key : Type u) where
  | insert (key : Key)
  | erase (key : Key)
  | clear

namespace FlatSet

variable {Key : Type u} (compare : Key → Key → Prop)

/-- The set after an operation. -/
def apply [DecidableRel compare] (s : FlatSet Key) : FlatSetOperation Key → FlatSet Key
  | .insert key => (s.insert compare key).1
  | .erase key => (s.erase compare key).1
  | .clear => s.clear

/-- The storage is strictly sorted. -/
def Sorted (s : FlatSet Key) : Prop := s.storage.Pairwise compare

/-- The keys that the set counts as its own. -/
def contents (s : FlatSet Key) : Set Key := {k | ∃ key ∈ s.storage, Equivalent compare key k}

end FlatSet

/-- What an operation does to a set of keys that holds all equivalents of each. -/
def FlatSetOperation.onSet {Key : Type u} (compare : Key → Key → Prop) (keys : Set Key) :
    FlatSetOperation Key → Set Key
  | .insert key => keys ∪ {k | Equivalent compare key k}
  | .erase key => keys \ {k | Equivalent compare key k}
  | .clear => ∅

namespace FlatSet

variable {Key : Type u} {compare : Key → Key → Prop} [IsStrictWeakOrder Key compare]
  {s : FlatSet Key}

/-! ### One operation -/

section

variable [DecidableRel compare]

theorem find_eq_some {k : Key} {i : Nat} (hs : s.Sorted compare) (h : s.find compare k = some i) :
    ∃ key, s.storage[i]? = some key ∧ Equivalent compare key k := by
  obtain ⟨before, after, hsplit, hitr⟩ := lowerBound_splits hs k
  unfold find at h
  simp only [hitr] at h
  split at h
  · contradiction
  · next key hkey =>
    split at h
    · contradiction
    · next hnot =>
      cases h
      refine ⟨key, hkey, hsplit.notBelow key ?_, hnot⟩
      rw [hsplit.append, getElem?_append_right (Nat.le_refl _), Nat.sub_self] at hkey
      exact mem_of_getElem? hkey

theorem find_eq_none {k : Key} (hs : s.Sorted compare) (h : s.find compare k = none) :
    k ∉ s.contents compare := by
  rintro ⟨key, hmem, heq⟩
  obtain ⟨before, after, hsplit, hitr⟩ := lowerBound_splits hs k
  have hhead := hsplit.head_of_equivalent hs hmem heq
  unfold find at h
  simp only [hitr] at h
  rw [hsplit.append, getElem?_append_right (Nat.le_refl _), Nat.sub_self,
    ← head?_eq_getElem?, hhead] at h
  simp only [if_neg heq.2] at h
  contradiction

/-- A key is found exactly when the set counts it as its own. -/
theorem find_isSome_iff {k : Key} (hs : s.Sorted compare) :
    (s.find compare k).isSome = true ↔ k ∈ s.contents compare := by
  cases hfind : s.find compare k with
  | none => simp [find_eq_none hs hfind]
  | some i =>
    obtain ⟨key, hkey, heq⟩ := find_eq_some hs hfind
    exact iff_of_true rfl ⟨key, mem_of_getElem? hkey, heq⟩

omit [IsStrictWeakOrder Key compare] [DecidableRel compare] in
theorem insertIdx_length_append (before after : List Key) (new : Key) :
    (before ++ after).insertIdx before.length new = before ++ new :: after := by
  induction before with
  | nil => exact insertIdx_zero
  | cons key before ih =>
    rw [cons_append, length_cons, insertIdx_succ_cons, ih, cons_append]

/-- An insertion leaves the set as it is when it has the key, and else puts the key in its place. -/
theorem insert_cases (hs : s.Sorted compare) (new : Key) :
    (new ∈ s.contents compare ∧ ∃ i key, s.storage[i]? = some key ∧ Equivalent compare key new ∧
        s.insert compare new = (s, i, false)) ∨
      (new ∉ s.contents compare ∧ ∃ before after, s.storage = before ++ after ∧
        (before ++ new :: after).Pairwise compare ∧
        s.insert compare new = (⟨before ++ new :: after⟩, before.length, true)) := by
  obtain ⟨before, after, hsplit, hitr⟩ := lowerBound_splits hs new
  have hat : s.storage[before.length]? = after.head? := by
    rw [hsplit.append, getElem?_append_right (Nat.le_refl _), Nat.sub_self, head?_eq_getElem?]
  unfold insert emplace
  simp only [hitr, hat]
  by_cases hany : (after.head?.any fun key => !decide (compare new key)) = true
  · left
    rw [if_pos hany]
    rw [Option.any_eq_true] at hany
    obtain ⟨key, hkey, hnot⟩ := hany
    have hmem : key ∈ after := mem_of_head? hkey
    have heq : Equivalent compare key new := ⟨hsplit.notBelow key hmem, by simpa using hnot⟩
    have hin : key ∈ s.storage := by
      rw [hsplit.append]
      exact mem_append_right before hmem
    exact ⟨⟨key, hin, heq⟩, before.length, key, hat.trans hkey, heq, rfl⟩
  · right
    rw [if_neg hany]
    have habove : ∀ a, after.head? = some a → compare new a := by
      intro a ha
      rw [ha] at hany
      simpa using hany
    rw [hsplit.append, insertIdx_length_append]
    refine ⟨?_, before, after, rfl, hsplit.pairwise_insert hs habove, rfl⟩
    rintro ⟨key, hmem, heq⟩
    exact heq.2 (habove key (hsplit.head_of_equivalent hs hmem heq))

/-- An erasure leaves the set as it is when it has no such key, and else takes one key out. -/
theorem erase_cases (hs : s.Sorted compare) (k : Key) :
    (k ∉ s.contents compare ∧ s.erase compare k = (s, 0)) ∨
      ∃ before key after, s.storage = before ++ key :: after ∧ Equivalent compare key k ∧
        s.erase compare k = (⟨before ++ after⟩, 1) := by
  unfold erase
  cases hfind : s.find compare k with
  | none => exact .inl ⟨find_eq_none hs hfind, rfl⟩
  | some i =>
    right
    obtain ⟨key, hkey, heq⟩ := find_eq_some hs hfind
    obtain ⟨hlt, rfl⟩ := List.getElem?_eq_some_iff.mp hkey
    refine ⟨s.storage.take i, s.storage[i], s.storage.drop (i + 1), ?_, heq, ?_⟩
    · rw [← drop_eq_getElem_cons hlt, take_append_drop]
    · dsimp only
      rw [eraseIdx_eq_take_drop_succ]

end

omit [IsStrictWeakOrder Key compare] in
theorem mem_contents_append {before after : List Key} {k : Key} :
    k ∈ contents compare ⟨before ++ after⟩ ↔
      k ∈ contents compare ⟨before⟩ ∨ k ∈ contents compare ⟨after⟩ := by
  unfold contents
  simp [or_and_right, exists_or]

omit [IsStrictWeakOrder Key compare] in
theorem mem_contents_cons {key : Key} {after : List Key} {k : Key} :
    k ∈ contents compare ⟨key :: after⟩ ↔
      Equivalent compare key k ∨ k ∈ contents compare ⟨after⟩ := by
  unfold contents
  simp

variable [DecidableRel compare]

theorem sorted_insert (hs : s.Sorted compare) (new : Key) :
    (s.insert compare new).1.Sorted compare ∧
      (s.insert compare new).1.contents compare =
        s.contents compare ∪ {k | Equivalent compare new k} := by
  rcases insert_cases hs new with ⟨⟨key, hmem, hkey⟩, i, -, -, -, heq⟩ | ⟨-, before, after, hstorage, hpair, heq⟩
  · rw [heq]
    refine ⟨hs, (Set.union_eq_left.mpr fun k hk => ?_).symm⟩
    exact ⟨key, hmem, hkey.trans hk⟩
  · rw [heq]
    refine ⟨hpair, Set.ext fun k => ?_⟩
    have hold : k ∈ s.contents compare ↔
        k ∈ contents compare ⟨before⟩ ∨ k ∈ contents compare ⟨after⟩ := by
      rw [← mem_contents_append, ← hstorage]
    rw [mem_contents_append, mem_contents_cons, Set.mem_union, hold, Set.mem_ofPred_eq, or_left_comm,
      or_comm]

theorem sorted_erase (hs : s.Sorted compare) (k : Key) :
    (s.erase compare k).1.Sorted compare ∧
      (s.erase compare k).1.contents compare =
        s.contents compare \ {k' | Equivalent compare k k'} := by
  rcases erase_cases hs k with ⟨hnot, heq⟩ | ⟨before, key, after, hstorage, hkey, heq⟩
  · rw [heq]
    refine ⟨hs, Set.ext fun k' => ⟨fun hin => ⟨hin, fun hk' => ?_⟩, And.left⟩⟩
    obtain ⟨key, hmem, hkey⟩ := hin
    exact hnot ⟨key, hmem, hkey.trans hk'.symm⟩
  · rw [heq]
    unfold Sorted at hs ⊢
    rw [hstorage, pairwise_append, pairwise_cons] at hs
    obtain ⟨hbefore, ⟨hfirst, hafter⟩, hcross⟩ := hs
    refine ⟨pairwise_append.mpr ⟨hbefore, hafter, fun a ha b hb =>
      hcross a ha b (mem_cons_of_mem key hb)⟩, Set.ext fun k' => ?_⟩
    -- No other key of a sorted storage is equivalent to the one that is taken out.
    have hothers : k' ∈ contents compare ⟨before ++ after⟩ → ¬Equivalent compare k k' := by
      rw [mem_contents_append]
      rintro (⟨a, ha, hak⟩ | ⟨a, ha, hak⟩) hk'
      · exact ((hak.trans hk'.symm).trans hkey.symm).1 (hcross a ha key mem_cons_self)
      · exact ((hak.trans hk'.symm).trans hkey.symm).2 (hfirst a ha)
    have hold : k' ∈ s.contents compare ↔ k' ∈ contents compare ⟨before⟩ ∨
        Equivalent compare key k' ∨ k' ∈ contents compare ⟨after⟩ := by
      rw [← mem_contents_cons, ← mem_contents_append, ← hstorage]
    constructor
    · intro hin
      refine ⟨hold.mpr ?_, hothers hin⟩
      exact (mem_contents_append.mp hin).imp_right Or.inr
    · rintro ⟨hin, hnot⟩
      rw [mem_contents_append]
      rcases hold.mp hin with hin | heq | hin
      · exact .inl hin
      · exact absurd (hkey.symm.trans heq) hnot
      · exact .inr hin

/-- Every operation keeps the storage sorted and does to the keys of the set what it is for. -/
theorem apply_spec (hs : s.Sorted compare) (op : FlatSetOperation Key) :
    (s.apply compare op).Sorted compare ∧
      (s.apply compare op).contents compare = op.onSet compare (s.contents compare) := by
  cases op with
  | insert key => exact sorted_insert hs key
  | erase key => exact sorted_erase hs key
  | clear => exact ⟨List.Pairwise.nil, by simp [apply, clear, contents, FlatSetOperation.onSet]⟩

end FlatSet

/-! ### Runs -/

namespace FlatSetOperation

variable {Key : Type u} (compare : Key → Key → Prop)

/-- The operation inserts an equivalent of the key. -/
def Inserts (op : FlatSetOperation Key) (k : Key) : Prop :=
  ∃ key, op = .insert key ∧ Equivalent compare key k

/-- The operation erases the equivalents of the key. -/
def Erases (k : Key) : FlatSetOperation Key → Prop
  | .insert _ => False
  | .erase key => Equivalent compare key k
  | .clear => True

/-- An equivalent of the key was inserted and not erased since. -/
def InsertedSince (ops : List (FlatSetOperation Key)) (k : Key) : Prop :=
  ∃ before op after, ops = before ++ op :: after ∧ op.Inserts compare k ∧
    ∀ later ∈ after, ¬later.Erases compare k

variable {compare}

theorem insertedSince_concat {ops : List (FlatSetOperation Key)} {op : FlatSetOperation Key}
    {k : Key} : InsertedSince compare (ops ++ [op]) k ↔
      op.Inserts compare k ∨ InsertedSince compare ops k ∧ ¬op.Erases compare k := by
  constructor
  · rintro ⟨before, first, after, heq, hinserts, hsince⟩
    rcases eq_nil_or_concat' after with rfl | ⟨init, last, rfl⟩
    · obtain ⟨-, hfirst⟩ := append_inj' heq rfl
      cases hfirst
      exact .inl hinserts
    · rw [← cons_append, ← append_assoc] at heq
      obtain ⟨rfl, hlast⟩ := append_inj' heq rfl
      cases hlast
      refine .inr ⟨⟨before, first, init, rfl, hinserts, fun later hmem => ?_⟩, ?_⟩
      · exact hsince later (mem_append_left _ hmem)
      · exact hsince op (mem_append_right _ (mem_singleton_self op))
  · rintro (hinserts | ⟨⟨before, first, after, rfl, hinserts, hsince⟩, hnot⟩)
    · exact ⟨ops, op, [], rfl, hinserts, nofun⟩
    · refine ⟨before, first, after ++ [op], by simp, hinserts, fun later hmem => ?_⟩
      rcases mem_append.mp hmem with hmem | hmem
      · exact hsince later hmem
      · rw [mem_singleton.mp hmem]
        exact hnot

/-- Insertions alone leave what they insert. -/
theorem insertedSince_inserts {keys : List Key} {k : Key} :
    InsertedSince compare (keys.map .insert) k ↔ ∃ key ∈ keys, Equivalent compare key k := by
  induction keys using reverseRecOn with
  | nil =>
    refine iff_of_false ?_ (by simp)
    rintro ⟨before, op, after, heq, -⟩
    simp at heq
  | append_singleton keys key ih =>
    rw [map_append, map_singleton, insertedSince_concat, ih]
    simp [Inserts, Erases, or_and_right, exists_or, or_comm]

theorem mem_onSet {keys : Set Key} {op : FlatSetOperation Key} {k : Key} :
    k ∈ op.onSet compare keys ↔ op.Inserts compare k ∨ k ∈ keys ∧ ¬op.Erases compare k := by
  unfold onSet Inserts Erases
  cases op with
  | insert key => simp [or_comm]
  | erase key => simp
  | clear => simp

/-- The keys that operations leave in a set are those inserted and not erased since. -/
theorem mem_run_onSet (ops : List (FlatSetOperation Key)) (k : Key) :
    k ∈ run (fun keys op => op.onSet compare keys) ∅ ops ↔ InsertedSince compare ops k := by
  induction ops using reverseRecOn with
  | nil =>
    refine iff_of_false (Set.notMem_empty k) ?_
    rintro ⟨before, op, after, heq, -⟩
    simp at heq
  | append_singleton ops op ih =>
    rw [run_concat, mem_onSet, insertedSince_concat, ih]

end FlatSetOperation

namespace FlatSet

open FlatSetOperation

variable {Key : Type u} {compare : Key → Key → Prop} [DecidableRel compare]
  [IsStrictWeakOrder Key compare]

/-- The set after some operations on an empty one. -/
def after (compare : Key → Key → Prop) [DecidableRel compare] (ops : List (FlatSetOperation Key)) :
    FlatSet Key :=
  run (apply compare) {} ops

/-- A sorted set stands for the keys that it counts as its own. -/
structure Refines (compare : Key → Key → Prop) (s : FlatSet Key) (keys : Set Key) : Prop where
  sorted : s.Sorted compare
  contents : s.contents compare = keys

/-- The storage stays sorted, and holds the keys inserted and not erased since. -/
theorem after_spec (ops : List (FlatSetOperation Key)) :
    (after compare ops).Sorted compare ∧
      ∀ k, k ∈ (after compare ops).contents compare ↔ InsertedSince compare ops k := by
  have hempty : Refines compare {} ∅ := ⟨List.Pairwise.nil, by simp [contents]⟩
  have hstep : ∀ s keys op, Refines compare s keys →
      Refines compare (s.apply compare op) (op.onSet compare keys) := by
    rintro s keys op ⟨hs, rfl⟩
    obtain ⟨hsorted, hkeys⟩ := apply_spec hs op
    exact ⟨hsorted, hkeys⟩
  have hrun : Refines compare (run (apply compare) {} ops)
      (run (fun keys op => op.onSet compare keys) ∅ ops) := run_simulation hempty hstep ops
  refine ⟨hrun.1, fun k => ?_⟩
  rw [← mem_run_onSet, ← hrun.2]
  rfl

omit [DecidableRel compare] in
/-- Under a total order two sorted sets with the same keys are equal. -/
theorem eq_of_contents_eq [Std.Trichotomous compare] {s s' : FlatSet Key} (hs : s.Sorted compare)
    (hs' : s'.Sorted compare) (h : s.contents compare = s'.contents compare) : s = s' := by
  have hmem : ∀ (t : FlatSet Key) k, k ∈ t.contents compare ↔ k ∈ t.storage := by
    intro t k
    constructor
    · rintro ⟨key, hmem, heq⟩
      rcases trichotomous_of compare key k with hlt | rfl | hlt
      · exact absurd hlt heq.1
      · exact hmem
      · exact absurd hlt heq.2
    · exact fun hmem => ⟨k, hmem, Equivalent.refl k⟩
  have hperm : s.storage.Perm s'.storage := by
    rw [perm_ext_iff_of_nodup (hs.imp fun hlt => ne_of_irrefl hlt)
      (hs'.imp fun hlt => ne_of_irrefl hlt)]
    intro k
    rw [← hmem s, ← hmem s', h]
  cases s
  cases s'
  exact congrArg _ (hperm.eq_of_pairwise (fun a b _ _ hab hba => absurd hba (asymm hab)) hs hs')

/-- A flat set is a sorted set: after any operations the storage is strictly sorted, a key is found
where an equivalent one is exactly when one was inserted and not erased since, an insertion says
that the key was absent, and under a total order the insertions count and not their order. -/
theorem flatSet_sorted_set (ops : List (FlatSetOperation Key)) :
    (after compare ops).storage.Pairwise compare ∧
      (∀ k, ((after compare ops).find compare k).isSome = true ↔ InsertedSince compare ops k) ∧
      (∀ k i, (after compare ops).find compare k = some i →
        ∃ key, (after compare ops).storage[i]? = some key ∧ Equivalent compare key k) ∧
      (∀ k, ((after compare ops).insert compare k).2.2 = true ↔ ¬InsertedSince compare ops k) ∧
      (Std.Trichotomous compare → ∀ keys keys' : List Key, keys.Perm keys' →
        after compare (keys.map .insert) = after compare (keys'.map .insert)) := by
  obtain ⟨hs, hcontents⟩ := @after_spec Key compare _ _ ops
  refine ⟨hs, fun k => ?_, fun k i => find_eq_some hs, fun k => ?_, fun _ keys keys' hperm => ?_⟩
  · rw [find_isSome_iff hs, hcontents]
  · rw [← hcontents]
    rcases insert_cases hs k with ⟨hin, i, key, -, -, heq⟩ | ⟨hnot, before, after, -, -, heq⟩
    · simp [heq, hin]
    · simp [heq, hnot]
  · obtain ⟨hsorted, hkeys⟩ := @after_spec Key compare _ _ (keys.map .insert)
    obtain ⟨hsorted', hkeys'⟩ := @after_spec Key compare _ _ (keys'.map .insert)
    refine eq_of_contents_eq hsorted hsorted' (Set.ext fun k => ?_)
    rw [hkeys, hkeys', insertedSince_inserts, insertedSince_inserts]
    exact exists_congr fun key => and_congr_left' hperm.mem_iff

/-- Numbers by their tens. -/
def byTens (a b : Nat) : Prop := a / 10 < b / 10

instance : DecidableRel byTens := fun a b => inferInstanceAs (Decidable (a / 10 < b / 10))

instance : IsStrictWeakOrder Nat (· < ·) := isStrictWeakOrder_of_isOrderConnected

instance : IsStrictWeakOrder Nat byTens :=
  inferInstanceAs (IsStrictWeakOrder Nat (Function.onFun (· < ·) (· / 10)))

theorem flatSet_sorted_set_byTens :
    ((after byTens [.insert 12, .insert 25, .erase 20]).find byTens 17).isSome = true ∧
      ((after byTens [.insert 12, .insert 25, .erase 20]).insert byTens 29).2.2 = true ∧
      after (· < ·) ([3, 1, 2].map .insert) = after (· < ·) ([1, 2, 3].map .insert) := by
  obtain ⟨-, hfind, -, hinsert, -⟩ :=
    @flatSet_sorted_set Nat byTens _ _ [.insert 12, .insert 25, .erase 20]
  obtain ⟨-, -, -, -, horder⟩ := @flatSet_sorted_set Nat (· < ·) _ _ []
  refine ⟨(hfind 17).mpr ?_, (hinsert 29).mpr ?_, horder inferInstance _ _ (by decide)⟩
  · exact ⟨[], .insert 12, [.insert 25, .erase 20], rfl, ⟨12, rfl, by simp [Equivalent, byTens]⟩, by
      simp [Erases, Equivalent, byTens]⟩
  · rw [show [FlatSetOperation.insert 12, .insert 25, .erase 20] =
      [12, 25].map .insert ++ [.erase 20] from rfl, insertedSince_concat]
    simp [Inserts, Erases, Equivalent, byTens]

end FlatSet

end TrinityCore.Containers
