import Mathlib.Data.List.Induction
import TrinityCore.Bots.RouteNativeCompletion
import TrinityCore.Lib.SelfDelimiting

/-!
# Completion trees over a run

What the verdicts of a completion tree mean when it is evaluated tick by tick with one memory:
the leaves write the memory while the fold over their siblings is still running, and yet every
verdict is the one that the memory before the tick gives.
-/

namespace TrinityCore.Bots.RouteNative

open List

/-- Induction over a tree: a node may use all its children. -/
theorem CompletionContract.induction {motive : CompletionContract → Prop}
    (node : ∀ own children, (∀ child ∈ children, motive child) → motive ⟨own, children⟩)
    (tree : CompletionContract) : motive tree :=
  tree.rec (motive_1 := motive) (motive_2 := fun children => ∀ child ∈ children, motive child)
    node (fun _ h => nomatch h)
    (fun _ _ hhead htail _ h => (mem_cons.mp h).elim (fun heq => heq ▸ hhead) (htail _))

/-! ### Keys of objects -/

/-- Different objects have different keys. -/
theorem despawnKey_inj {entry entry' : UInt32} {spawnId spawnId' : UInt64}
    (h : despawnKey entry spawnId = despawnKey entry' spawnId') :
    entry = entry' ∧ spawnId = spawnId' := by
  have hlist := congrArg String.toList h
  simp only [despawnKey, String.toList_append, Nat.toString_eq_ofList_toDigits,
    String.toList_ofList, append_assoc] at hlist
  have htail := append_cancel_left hlist
  have hcolon := SelfDelimiting.not_mem_toDigits (c := ':') rfl
  obtain ⟨hentry, hspawn⟩ := SelfDelimiting.eq_of_append_cons (hcolon _) (hcolon _) htail
  exact ⟨UInt32.toNat_inj.mp (SelfDelimiting.toDigits_injective hentry),
    UInt64.toNat_inj.mp (SelfDelimiting.toDigits_injective hspawn)⟩

/-! ### One tick -/

/-- A memory during a tick: nothing is forgotten, and what is new was observed spawned. -/
structure Grown (facts : FactSource) (memory memory' : CompletionMemory) : Prop where
  kept : ∀ key, memory.seen key = true → memory'.seen key = true
  new : ∀ entry spawnId, memory'.seen (despawnKey entry spawnId) = true →
    memory.seen (despawnKey entry spawnId) = true ∨ observedSpawned facts entry spawnId = true

theorem Grown.refl (facts : FactSource) (memory : CompletionMemory) : Grown facts memory memory :=
  ⟨fun _ h => h, fun _ _ h => .inl h⟩

variable {facts : FactSource} {memory memory' : CompletionMemory} {own : CompletionFields}
  {children : List CompletionContract} {node tree tree' : CompletionContract}

theorem Grown.trans {memory'' : CompletionMemory} (h : Grown facts memory memory')
    (h' : Grown facts memory' memory'') : Grown facts memory memory'' :=
  ⟨fun key hseen => h'.kept key (h.kept key hseen), fun entry spawnId hseen =>
    (h'.new entry spawnId hseen).elim (h.new entry spawnId) .inr⟩

/-- Evaluating from a memory gives a verdict. -/
def satisfied (facts : FactSource) (memory : CompletionMemory) (tree : CompletionContract) : Bool :=
  (evaluateCompletion facts tree memory).1.satisfied

/-- The verdict of a despawn leaf depends only on the memory before the tick. -/
theorem satisfied_evaluateDespawned (own : CompletionFields) (facts : FactSource)
    (memory : CompletionMemory) :
    (evaluateDespawned own facts memory).1.satisfied = true ↔
      observedSpawned facts own.entry own.spawnId = false ∧
        ((facts.gameObjects own.entry own.spawnId).facts ≠ [] ∨
          (facts.gameObjects own.entry own.spawnId).absenceAuthoritative = true) ∧
        (own.requireObservedPresent = true →
          memory.seen (despawnKey own.entry own.spawnId) = true) := by
  rw [evaluateDespawned]
  split
  · next hspawned => simp [hspawned]
  next hspawned =>
  split
  · next hunknown => simp_all
  next hknown =>
  split
  · next hunseen => simp_all
  next hseen =>
  simp only [Bool.and_eq_true, List.isEmpty_iff, Bool.not_eq_true'] at hknown hseen
  simp only [true_iff]
  refine ⟨by simpa using hspawned, ?_, ?_⟩
  · by_contra hnone
    rw [not_or, not_not, Bool.not_eq_true] at hnone
    exact hknown hnone
  · intro hrequire
    by_contra hnot
    exact hseen ⟨hrequire, Bool.not_eq_true _ ▸ hnot⟩

theorem seen_evaluateDespawned (own : CompletionFields) (facts : FactSource)
    (memory : CompletionMemory) (key : String) :
    (evaluateDespawned own facts memory).2.seen key = true ↔ memory.seen key = true ∨
      observedSpawned facts own.entry own.spawnId = true ∧
        key = despawnKey own.entry own.spawnId := by
  rw [evaluateDespawned]
  split
  · next hspawned => simp [hspawned]
  next hspawned =>
  split
  · simp [hspawned]
  split
  · simp [hspawned]
  · simp [hspawned]

/-! ### Nodes of a tree -/

/-- A node whose children are evaluated. -/
def CompletionFields.inner (own : CompletionFields) : Prop := own.kind = .anyOf ∨ own.kind = .allOf

/-- A node of a tree that is evaluated with it. -/
inductive Below (node : CompletionContract) : CompletionContract → Prop where
  | here : Below node node
  | child {own : CompletionFields} {children : List CompletionContract}
      {child : CompletionContract} (hinner : own.inner) (hmem : child ∈ children)
      (hbelow : Below node child) : Below node ⟨own, children⟩

/-- The keys a tick adds to the memory: those of the despawn leaves whose object is spawned. -/
def Remembers (facts : FactSource) (tree : CompletionContract) (key : String) : Prop :=
  ∃ own children, Below ⟨own, children⟩ tree ∧ own.kind = .gameObjectDespawned ∧
    observedSpawned facts own.entry own.spawnId = true ∧ key = despawnKey own.entry own.spawnId

theorem remembers_inner_iff (hinner : own.inner) (key : String) :
    Remembers facts ⟨own, children⟩ key ↔ ∃ child ∈ children, Remembers facts child key := by
  constructor
  · rintro ⟨leaf, below, hbelow, hkind, hfacts⟩
    cases hbelow with
    | here =>
      rcases hinner with hany | hall
      · exact nomatch hkind.symm.trans hany
      · exact nomatch hkind.symm.trans hall
    | child _ hmem hbelow => exact ⟨_, hmem, leaf, below, hbelow, hkind, hfacts⟩
  · rintro ⟨child, hmem, leaf, below, hbelow, hfacts⟩
    exact ⟨leaf, below, .child hinner hmem hbelow, hfacts⟩

theorem remembers_leaf_iff (hinner : ¬ own.inner) (key : String) :
    Remembers facts ⟨own, children⟩ key ↔ own.kind = .gameObjectDespawned ∧
      observedSpawned facts own.entry own.spawnId = true ∧
        key = despawnKey own.entry own.spawnId := by
  constructor
  · rintro ⟨leaf, below, hbelow, hfacts⟩
    cases hbelow with
    | here => exact hfacts
    | child hinner' => exact absurd hinner' hinner
  · intro hfacts
    exact ⟨own, children, .here, hfacts⟩

/-! ### The memory after a tick -/

section

variable {facts : FactSource}

theorem evaluateChildren_cons (any : Bool) (child : CompletionContract)
    (rest : List CompletionContract) (result : Bool) (reasons : String)
    (memory : CompletionMemory) :
    ∃ reasons', evaluateChildren facts any (child :: rest) result reasons memory =
      evaluateChildren facts any rest
        (if any then result || satisfied facts memory child
          else result && satisfied facts memory child)
        reasons' (evaluateCompletion facts child memory).2 := by
  obtain ⟨own, children⟩ := child
  rw [evaluateChildren]
  exact ⟨_, rfl⟩

/-- The memory after the given trees. -/
def rememberAll (facts : FactSource) (trees : List CompletionContract)
    (memory : CompletionMemory) : CompletionMemory :=
  trees.foldl (fun memory tree => (evaluateCompletion facts tree memory).2) memory

theorem memory_evaluateChildren (any : Bool) (children : List CompletionContract) (result : Bool)
    (reasons : String) (memory : CompletionMemory) :
    (evaluateChildren facts any children result reasons memory).2.2 =
      rememberAll facts children memory := by
  induction children generalizing result reasons memory with
  | nil => rw [evaluateChildren]; rfl
  | cons child rest ih =>
    obtain ⟨reasons', heq⟩ := evaluateChildren_cons any child rest result reasons memory
    rw [heq, ih]
    rfl

theorem memory_evaluateCompletion_inner (hinner : own.inner) (children : List CompletionContract)
    (memory : CompletionMemory) :
    (evaluateCompletion facts ⟨own, children⟩ memory).2 = rememberAll facts children memory := by
  rw [evaluateCompletion]
  rcases hinner with hkind | hkind
  · rw [hkind]
    exact memory_evaluateChildren ..
  · rw [hkind]
    exact memory_evaluateChildren ..

theorem evaluateCompletion_despawned (hkind : own.kind = .gameObjectDespawned)
    (children : List CompletionContract) (memory : CompletionMemory) :
    evaluateCompletion facts ⟨own, children⟩ memory = evaluateDespawned own facts memory := by
  rw [evaluateCompletion, hkind]

theorem evaluateCompletion_leaf (hinner : ¬ own.inner) (hkind : own.kind ≠ .gameObjectDespawned)
    (children : List CompletionContract) (memory : CompletionMemory) :
    evaluateCompletion facts ⟨own, children⟩ memory = (leafVerdict own facts, memory) := by
  rw [evaluateCompletion]
  split
  · next h => exact absurd h hkind
  · next h => exact absurd (.inl h) hinner
  · next h => exact absurd (.inr h) hinner
  · rfl

/-- A tick remembers exactly the spawned objects of its despawn leaves. -/
theorem seen_evaluateCompletion (tree : CompletionContract) (memory : CompletionMemory)
    (key : String) :
    (evaluateCompletion facts tree memory).2.seen key = true ↔
      memory.seen key = true ∨ Remembers facts tree key := by
  induction tree using CompletionContract.induction generalizing memory with
  | node own children ih =>
  by_cases hinner : own.inner
  · rw [memory_evaluateCompletion_inner hinner, remembers_inner_iff hinner]
    clear hinner
    induction children generalizing memory with
    | nil => simp [rememberAll]
    | cons child rest ihrest =>
      have hrest := ihrest (fun c hc => ih c (mem_cons_of_mem _ hc))
        (evaluateCompletion facts child memory).2
      have hchild := ih child mem_cons_self memory
      show (rememberAll facts rest (evaluateCompletion facts child memory).2).seen key = true ↔ _
      rw [hrest, hchild, or_assoc]
      simp
  · rw [remembers_leaf_iff hinner]
    by_cases hkind : own.kind = .gameObjectDespawned
    · rw [evaluateCompletion_despawned hkind, seen_evaluateDespawned]
      simp [hkind]
    · rw [evaluateCompletion_leaf hinner hkind]
      simp [hkind]

theorem grown_evaluateCompletion (tree : CompletionContract) (memory : CompletionMemory) :
    Grown facts memory (evaluateCompletion facts tree memory).2 := by
  constructor
  · intro key hseen
    exact (seen_evaluateCompletion ..).mpr (.inl hseen)
  · intro entry spawnId hseen
    apply ((seen_evaluateCompletion ..).mp hseen).imp_right
    rintro ⟨own, children, -, -, hspawned, hkey⟩
    obtain ⟨rfl, rfl⟩ := despawnKey_inj hkey
    exact hspawned

/-! ### Verdicts -/

/-- The fold over the verdicts of the children. -/
theorem result_evaluateChildren
    (hchild : ∀ child ∈ children, ∀ memory', Grown facts memory memory' →
      satisfied facts memory' child = satisfied facts memory child)
    (any : Bool) (result : Bool) (reasons : String) (h : Grown facts memory memory') :
    (evaluateChildren facts any children result reasons memory').1 =
      if any then result || children.any (satisfied facts memory)
      else result && children.all (satisfied facts memory) := by
  induction children generalizing result reasons memory' with
  | nil => cases any <;> simp [evaluateChildren]
  | cons child rest ih =>
    obtain ⟨reasons', heq⟩ := evaluateChildren_cons any child rest result reasons memory'
    rw [heq, ih (fun c hc => hchild c (mem_cons_of_mem _ hc)) _ _
      (h.trans (grown_evaluateCompletion child memory')),
      hchild child mem_cons_self memory' h]
    cases any
    · simp [Bool.and_assoc]
    · simp [Bool.or_assoc]

theorem satisfied_eq_of_anyOf (hkind : own.kind = .anyOf) (children : List CompletionContract)
    (memory : CompletionMemory) :
    satisfied facts memory ⟨own, children⟩ =
      (evaluateChildren facts true children false "" memory).1 := by
  rw [satisfied, evaluateCompletion, hkind]

theorem satisfied_eq_of_allOf (hkind : own.kind = .allOf) (children : List CompletionContract)
    (memory : CompletionMemory) :
    satisfied facts memory ⟨own, children⟩ =
      (evaluateChildren facts false children true "" memory).1 := by
  rw [satisfied, evaluateCompletion, hkind]

/-- What siblings remember during a tick changes no verdict of that tick. -/
theorem satisfied_of_grown (tree : CompletionContract) (h : Grown facts memory memory') :
    satisfied facts memory' tree = satisfied facts memory tree := by
  induction tree using CompletionContract.induction generalizing memory memory' with
  | node own children ih =>
  by_cases hkind : own.kind = .gameObjectDespawned
  · rw [satisfied, satisfied, evaluateCompletion_despawned hkind,
      evaluateCompletion_despawned hkind, Bool.eq_iff_iff, satisfied_evaluateDespawned,
      satisfied_evaluateDespawned]
    apply and_congr_right
    intro hspawned
    have hseen : memory'.seen (despawnKey own.entry own.spawnId) = true ↔
        memory.seen (despawnKey own.entry own.spawnId) = true := by
      constructor
      · intro hseen
        apply (h.new _ _ hseen).resolve_right
        simp [hspawned]
      · exact h.kept _
    rw [hseen]
  by_cases hinner : own.inner
  · have hchild (child : CompletionContract) (hmem : child ∈ children)
        (memory' : CompletionMemory) (hgrown : Grown facts memory memory') :=
      ih child hmem hgrown
    rcases hinner with hany | hall
    · rw [satisfied_eq_of_anyOf hany, satisfied_eq_of_anyOf hany,
        result_evaluateChildren hchild _ _ _ h,
        result_evaluateChildren hchild _ _ _ (.refl facts memory)]
    · rw [satisfied_eq_of_allOf hall, satisfied_eq_of_allOf hall,
        result_evaluateChildren hchild _ _ _ h,
        result_evaluateChildren hchild _ _ _ (.refl facts memory)]
  · rw [satisfied, satisfied, evaluateCompletion_leaf hinner hkind,
      evaluateCompletion_leaf hinner hkind]

theorem satisfied_anyOf (hkind : own.kind = .anyOf) (children : List CompletionContract)
    (memory : CompletionMemory) :
    satisfied facts memory ⟨own, children⟩ = children.any (satisfied facts memory) := by
  rw [satisfied_eq_of_anyOf hkind,
    result_evaluateChildren (fun child _ _ h => satisfied_of_grown child h) _ _ _
      (.refl facts memory)]
  simp

theorem satisfied_allOf (hkind : own.kind = .allOf) (children : List CompletionContract)
    (memory : CompletionMemory) :
    satisfied facts memory ⟨own, children⟩ = children.all (satisfied facts memory) := by
  rw [satisfied_eq_of_allOf hkind,
    result_evaluateChildren (fun child _ _ h => satisfied_of_grown child h) _ _ _
      (.refl facts memory)]
  simp

/-- A verdict reads the memory only as a set of keys. -/
theorem satisfied_congr (tree : CompletionContract)
    (h : ∀ key, memory.seen key = memory'.seen key) :
    satisfied facts memory tree = satisfied facts memory' tree := by
  apply (satisfied_of_grown tree _).symm
  exact ⟨fun key hseen => h key ▸ hseen, fun entry spawnId hseen => .inl (h _ ▸ hseen)⟩

end

/-! ### Evaluations inside a tree -/

/-- While a tree is evaluated from a memory, a node of it is evaluated from another memory. -/
inductive Evaluated (facts : FactSource) :
    CompletionContract → CompletionMemory → CompletionContract → CompletionMemory → Prop where
  | here (tree : CompletionContract) (memory : CompletionMemory) :
      Evaluated facts tree memory tree memory
  | child {own : CompletionFields} {before after : List CompletionContract}
      {child node : CompletionContract} {memory memory' : CompletionMemory} (hinner : own.inner)
      (hchild : Evaluated facts child (rememberAll facts before memory) node memory') :
      Evaluated facts ⟨own, before ++ child :: after⟩ memory node memory'

section

variable {facts : FactSource}

theorem grown_rememberAll (trees : List CompletionContract) (memory : CompletionMemory) :
    Grown facts memory (rememberAll facts trees memory) := by
  induction trees generalizing memory with
  | nil => exact .refl facts memory
  | cons tree rest ih => exact (grown_evaluateCompletion tree memory).trans (ih _)

theorem Evaluated.grown (h : Evaluated facts tree memory node memory') :
    Grown facts memory memory' := by
  induction h with
  | here tree memory => exact .refl facts memory
  | child _ _ ih => exact (grown_rememberAll _ _).trans ih

theorem Evaluated.isBelow (h : Evaluated facts tree memory node memory') : Below node tree := by
  induction h with
  | here tree memory => exact .here
  | child hinner _ ih => exact .child hinner (by simp) ih

/-- Every node is evaluated, whatever its siblings return. -/
theorem exists_evaluated (h : Below node tree) (memory : CompletionMemory) :
    ∃ memory', Evaluated facts tree memory node memory' := by
  induction h generalizing memory with
  | here => exact ⟨memory, .here _ memory⟩
  | child hinner hmem _ ih =>
    obtain ⟨before, after, rfl⟩ := append_of_mem hmem
    obtain ⟨memory', hchild⟩ := ih (rememberAll facts before memory)
    exact ⟨memory', .child hinner hchild⟩

end

/-! ### Runs -/

/-- The memory after a run of ticks that starts with nothing remembered. -/
def memoryAfter (tree : CompletionContract) (history : List FactSource) : CompletionMemory :=
  history.foldl (fun memory facts => (evaluateCompletion facts tree memory).2) {}

/-- What is remembered after a run. -/
theorem seen_memoryAfter (tree : CompletionContract) (history : List FactSource) (key : String) :
    (memoryAfter tree history).seen key = true ↔
      ∃ facts ∈ history, Remembers facts tree key := by
  induction history using reverseRecOn with
  | nil => simp [memoryAfter]
  | append_singleton history facts ih =>
    rw [memoryAfter, foldl_append, foldl_cons, foldl_nil, ← memoryAfter,
      seen_evaluateCompletion, ih]
    simp [or_and_right, exists_or]

/-- An object of a despawn leaf is remembered once it was observed spawned. -/
theorem seen_memoryAfter_despawned (hbelow : Below ⟨own, children⟩ tree)
    (hkind : own.kind = .gameObjectDespawned) (history : List FactSource) :
    (memoryAfter tree history).seen (despawnKey own.entry own.spawnId) = true ↔
      ∃ facts ∈ history, observedSpawned facts own.entry own.spawnId = true := by
  rw [seen_memoryAfter]
  constructor
  · rintro ⟨facts, hmem, leaf, below, -, -, hspawned, hkey⟩
    obtain ⟨hentry, hspawn⟩ := despawnKey_inj hkey
    rw [← hentry, ← hspawn] at hspawned
    exact ⟨facts, hmem, hspawned⟩
  · rintro ⟨facts, hmem, hspawned⟩
    exact ⟨facts, hmem, own, children, hbelow, hkind, hspawned, rfl⟩

/-! ### Permuted children -/

/-- Trees that differ in the order of children, at any level. -/
inductive Permuted : CompletionContract → CompletionContract → Prop where
  | refl (tree : CompletionContract) : Permuted tree tree
  | perm {children children' : List CompletionContract} (own : CompletionFields)
      (h : children.Perm children') : Permuted ⟨own, children⟩ ⟨own, children'⟩
  | child {child child' : CompletionContract} (own : CompletionFields)
      (before after : List CompletionContract) (h : Permuted child child') :
      Permuted ⟨own, before ++ child :: after⟩ ⟨own, before ++ child' :: after⟩
  | trans {tree tree' tree'' : CompletionContract} (h : Permuted tree tree')
      (h' : Permuted tree' tree'') : Permuted tree tree''

/-- Nodes with the same fields agree on a tick when their children do as a whole. -/
theorem tick_congr (own : CompletionFields)
    {children' : List CompletionContract}
    (hany : ∀ memory, children.any (satisfied facts memory) =
      children'.any (satisfied facts memory))
    (hall : ∀ memory, children.all (satisfied facts memory) =
      children'.all (satisfied facts memory))
    (hremembers : ∀ key, (∃ child ∈ children, Remembers facts child key) ↔
      ∃ child ∈ children', Remembers facts child key) :
    (∀ memory, satisfied facts memory ⟨own, children⟩ = satisfied facts memory ⟨own, children'⟩) ∧
      ∀ key, Remembers facts ⟨own, children⟩ key ↔ Remembers facts ⟨own, children'⟩ key := by
  by_cases hinner : own.inner
  · refine ⟨fun memory => ?_, fun key => ?_⟩
    · rcases hinner with hkind | hkind
      · rw [satisfied_anyOf hkind, satisfied_anyOf hkind, hany]
      · rw [satisfied_allOf hkind, satisfied_allOf hkind, hall]
    · rw [remembers_inner_iff hinner, remembers_inner_iff hinner, hremembers]
  · refine ⟨fun memory => ?_, fun key => ?_⟩
    · by_cases hkind : own.kind = .gameObjectDespawned
      · rw [satisfied, satisfied, evaluateCompletion_despawned hkind,
          evaluateCompletion_despawned hkind]
      · rw [satisfied, satisfied, evaluateCompletion_leaf hinner hkind,
          evaluateCompletion_leaf hinner hkind]
    · rw [remembers_leaf_iff hinner, remembers_leaf_iff hinner]

/-- A tick does not see the order of children. -/
theorem Permuted.tick (h : Permuted tree tree') (facts : FactSource) :
    (∀ memory, satisfied facts memory tree = satisfied facts memory tree') ∧
      ∀ key, Remembers facts tree key ↔ Remembers facts tree' key := by
  induction h with
  | refl tree => exact ⟨fun _ => rfl, fun _ => Iff.rfl⟩
  | perm own hperm =>
    apply tick_congr own
    · exact fun memory => hperm.any_eq
    · exact fun memory => hperm.all_eq
    · intro key
      simp only [hperm.mem_iff]
  | child own before after _ ih =>
    apply tick_congr own
    · intro memory
      simp only [any_append, any_cons, ih.1 memory]
    · intro memory
      simp only [all_append, all_cons, ih.1 memory]
    · intro key
      simp only [mem_append, mem_cons, or_and_right, exists_or, exists_eq_left, ih.2 key]
  | trans _ _ ih ih' =>
    exact ⟨fun memory => (ih.1 memory).trans (ih'.1 memory),
      fun key => (ih.2 key).trans (ih'.2 key)⟩

theorem Permuted.seen_memoryAfter (h : Permuted tree tree') (history : List FactSource)
    (key : String) :
    (memoryAfter tree history).seen key = (memoryAfter tree' history).seen key := by
  rw [Bool.eq_iff_iff, RouteNative.seen_memoryAfter, RouteNative.seen_memoryAfter]
  apply exists_congr
  intro facts
  rw [(h.tick facts).2 key]

/-! ### The meaning of a tree -/

/-- What the verdicts of a tree mean at every tick of a run. -/
structure Meaning (tree : CompletionContract) (history : List FactSource) (facts : FactSource) :
    Prop where
  /-- Every node is evaluated. -/
  evaluated : ∀ node, Below node tree →
    ∃ memory, Evaluated facts tree (memoryAfter tree history) node memory
  /-- Its verdict is that of the memory before the tick. -/
  verdict : ∀ node memory, Evaluated facts tree (memoryAfter tree history) node memory →
    satisfied facts memory node = satisfied facts (memoryAfter tree history) node
  anyOf : ∀ own children memory,
    Evaluated facts tree (memoryAfter tree history) ⟨own, children⟩ memory → own.kind = .anyOf →
      satisfied facts memory ⟨own, children⟩ = children.any (satisfied facts memory)
  allOf : ∀ own children memory,
    Evaluated facts tree (memoryAfter tree history) ⟨own, children⟩ memory → own.kind = .allOf →
      satisfied facts memory ⟨own, children⟩ = children.all (satisfied facts memory)
  /-- A despawn leaf is satisfied when its object is known not to be spawned and was observed
  spawned at an earlier tick. -/
  despawned : ∀ own children memory,
    Evaluated facts tree (memoryAfter tree history) ⟨own, children⟩ memory →
      own.kind = .gameObjectDespawned → own.requireObservedPresent = true →
        (satisfied facts memory ⟨own, children⟩ = true ↔
          observedSpawned facts own.entry own.spawnId = false ∧
            ((facts.gameObjects own.entry own.spawnId).facts ≠ [] ∨
              (facts.gameObjects own.entry own.spawnId).absenceAuthoritative = true) ∧
            ∃ earlier ∈ history, observedSpawned earlier own.entry own.spawnId = true)
  /-- The order of children at any level changes neither the verdict nor what is remembered. -/
  permuted : ∀ tree', Permuted tree tree' →
    satisfied facts (memoryAfter tree' history) tree' =
        satisfied facts (memoryAfter tree history) tree ∧
      ∀ key, (memoryAfter tree' history).seen key = (memoryAfter tree history).seen key

/-- Completion trees mean what they say over every run. -/
theorem meaning_of_completion (tree : CompletionContract) (history : List FactSource)
    (facts : FactSource) : Meaning tree history facts := by
  constructor
  case evaluated => exact fun node hbelow => exists_evaluated hbelow _
  case verdict => exact fun node memory h => satisfied_of_grown node h.grown
  case anyOf => exact fun own children memory _ hkind => satisfied_anyOf hkind children memory
  case allOf => exact fun own children memory _ hkind => satisfied_allOf hkind children memory
  case despawned =>
    intro own children memory h hkind hrequire
    have hseen := seen_memoryAfter_despawned h.isBelow hkind history
    rw [satisfied_of_grown _ h.grown, satisfied, evaluateCompletion_despawned hkind,
      satisfied_evaluateDespawned, hseen]
    simp only [hrequire, forall_const]
  case permuted =>
    intro tree' h
    have hsame (key : String) := h.seen_memoryAfter history key
    refine ⟨?_, fun key => (hsame key).symm⟩
    rw [(h.tick facts).1]
    exact satisfied_congr tree' fun key => (hsame key).symm

end TrinityCore.Bots.RouteNative
