import TrinityCore.Bots.RaidLockoutPlan

/-!
# Predecessors of raid bosses

The two walks of `BotRaidLockoutPlan.h` along predecessor edges: the work list of
`PredecessorClosure` and the depth-first search of `HasPredecessorCycle`. Both are compared with
the transitive closure of the edges.
-/

namespace TrinityCore.Bots.RaidLockout

open List

open Relation

/-- The predecessors of the boss with a key; an unknown key is a dead end. -/
def predecessorsOf (d : RaidDefinition) (key : String) : List String :=
  (findBoss d key).elim [] BossDefinition.predecessors

/-- A predecessor edge. -/
def Precedes (d : RaidDefinition) (key predecessor : String) : Prop :=
  predecessor ∈ predecessorsOf d key

variable {d : RaidDefinition} {key next : String} {closure : Std.ExtTreeSet String}
  {pending : List String} {color : Coloring}

/-- A key with an edge is that of a boss. -/
theorem exists_boss_of_precedes {predecessor : String} (h : Precedes d key predecessor) :
    ∃ boss ∈ d.bosses, boss.key = key := by
  rw [Precedes, predecessorsOf] at h
  cases hboss : findBoss d key with
  | none =>
    rw [hboss] at h
    cases h
  | some boss => exact ⟨boss, mem_of_find?_eq_some hboss, by simpa using find?_some hboss⟩

/-! ### The closure of a key -/

/-- The bosses whose keys the closure does not hold yet. -/
def unclosed (d : RaidDefinition) (closure : Std.ExtTreeSet String) : List BossDefinition :=
  d.bosses.filter fun boss => !closure.contains boss.key

theorem unclosed_insert_sublist (d : RaidDefinition) (closure : Std.ExtTreeSet String)
    (key : String) : (unclosed d (closure.insert key)).Sublist (unclosed d closure) := by
  apply monotone_filter_right
  intro boss hboss
  rw [Std.ExtTreeSet.contains_insert] at hboss
  simp only [Bool.not_or, Bool.and_eq_true] at hboss
  exact hboss.2

theorem length_unclosed_insert_lt (d : RaidDefinition) (hkey : closure.contains key = false)
    {boss : BossDefinition} (hboss : findBoss d key = some boss) :
    (unclosed d (closure.insert key)).length < (unclosed d closure).length := by
  have hname : boss.key = key := by simpa using find?_some hboss
  have hsub := unclosed_insert_sublist d closure key
  apply lt_of_le_of_ne hsub.length_le
  intro heq
  have hin : boss ∈ unclosed d closure :=
    mem_filter.mpr ⟨mem_of_find?_eq_some hboss, by simp [hname, hkey]⟩
  rw [← hsub.eq_of_length heq] at hin
  simpa [hname] using (mem_filter.mp hin).2

/-- The loop of `PredecessorClosure`. The first key of `pending` is the back of the vector. -/
def closeLoop (d : RaidDefinition) (key : String) (pending : List String)
    (closure : Std.ExtTreeSet String) : Std.ExtTreeSet String :=
  match pending with
  | [] => closure
  | next :: pending =>
    if next = key ∨ closure.contains next then closeLoop d key pending closure
    else
      match _hboss : findBoss d next with
      | none => closeLoop d key pending (closure.insert next)
      | some boss => closeLoop d key (boss.predecessors.reverse ++ pending) (closure.insert next)
  termination_by ((unclosed d closure).length, pending.length)
  decreasing_by
  · exact Prod.Lex.right _ (Nat.lt_succ_self _)
  · have hle := (unclosed_insert_sublist d closure next).length_le
    rcases Nat.lt_or_eq_of_le hle with hlt | heq
    · exact Prod.Lex.left _ _ hlt
    · rw [heq]
      exact Prod.Lex.right _ (Nat.lt_succ_self _)
  · next h =>
    apply Prod.Lex.left
    apply length_unclosed_insert_lt d _ _hboss
    exact Bool.eq_false_iff.mpr (not_or.mp h).2

/-- `PredecessorClosure`. -/
def predecessorClosure (d : RaidDefinition) (key : String) : Std.ExtTreeSet String :=
  closeLoop d key (predecessorsOf d key).reverse ∅

/-- What holds between rounds of the loop: all keys met are reachable, and an edge that leaves
them leads to a key still pending. -/
structure Closing (d : RaidDefinition) (key : String) (pending : List String)
    (closure : Std.ExtTreeSet String) : Prop where
  waiting : ∀ k ∈ pending, TransGen (Precedes d) key k
  met : ∀ k ∈ closure, k ≠ key ∧ TransGen (Precedes d) key k
  edge : ∀ a b, a = key ∨ a ∈ closure → Precedes d a b → b = key ∨ b ∈ closure ∨ b ∈ pending

/-- When no key is pending the closure is the set of reachable keys. -/
theorem Closing.mem_iff (h : Closing d key [] closure) (k : String) :
    k ∈ closure ↔ k ≠ key ∧ TransGen (Precedes d) key k := by
  refine ⟨h.met k, ?_⟩
  rintro ⟨hne, hreach⟩
  suffices hmet : k = key ∨ k ∈ closure from hmet.resolve_left hne
  clear hne
  induction hreach with
  | single hedge => simpa using h.edge key _ (.inl rfl) hedge
  | tail _ hedge ih => simpa using h.edge _ _ ih hedge

/-- A key that is the start or in the closure already is dropped. -/
theorem Closing.skip (h : Closing d key (next :: pending) closure)
    (hmet : next = key ∨ next ∈ closure) : Closing d key pending closure := by
  refine ⟨fun k hk => h.waiting k (mem_cons_of_mem _ hk), h.met, ?_⟩
  intro a b ha hedge
  rcases h.edge a b ha hedge with heq | hin | hpending
  · exact .inl heq
  · exact .inr (.inl hin)
  · rcases mem_cons.mp hpending with rfl | hrest
    · exact hmet.imp_right .inl
    · exact .inr (.inr hrest)

/-- A new key enters the closure and its predecessors become pending. -/
theorem Closing.enter (h : Closing d key (next :: pending) closure) (hne : next ≠ key) :
    Closing d key ((predecessorsOf d next).reverse ++ pending) (closure.insert next) := by
  have hnext := h.waiting next mem_cons_self
  have hmem (k : String) : k ∈ closure.insert next ↔ next = k ∨ k ∈ closure := by
    rw [Std.ExtTreeSet.mem_insert, Std.LawfulEqOrd.compare_eq_iff_eq]
  constructor
  · intro k hk
    rcases mem_append.mp hk with hedge | hrest
    · exact hnext.tail (mem_reverse.mp hedge)
    · exact h.waiting k (mem_cons_of_mem _ hrest)
  · intro k hk
    rcases (hmem k).mp hk with rfl | hin
    · exact ⟨hne, hnext⟩
    · exact h.met k hin
  · intro a b ha hedge
    by_cases hold : a = key ∨ a ∈ closure
    · rcases h.edge a b hold hedge with heq | hin | hpending
      · exact .inl heq
      · exact .inr (.inl ((hmem b).mpr (.inr hin)))
      · rcases mem_cons.mp hpending with rfl | hrest
        · exact .inr (.inl ((hmem _).mpr (.inl rfl)))
        · exact .inr (.inr (mem_append_right _ hrest))
    · have hnew : next = a :=
        (((hmem a).mp (ha.resolve_left fun heq => hold (.inl heq))).resolve_right
          fun hin => hold (.inr hin))
      subst hnew
      exact .inr (.inr (mem_append_left _ (mem_reverse.mpr hedge)))

theorem mem_closeLoop (h : Closing d key pending closure) (k : String) :
    k ∈ closeLoop d key pending closure ↔ k ≠ key ∧ TransGen (Precedes d) key k := by
  induction pending, closure using closeLoop.induct d key with
  | case1 closure =>
    rw [closeLoop]
    exact h.mem_iff k
  | case2 closure next pending hmet ih =>
    rw [closeLoop, if_pos hmet]
    exact ih (h.skip (hmet.imp_right Std.ExtTreeSet.mem_iff_contains.mpr))
  | case3 closure next pending hmet hboss ih =>
    have hclosing := h.enter (not_or.mp hmet).1
    rw [predecessorsOf, hboss] at hclosing
    rw [closeLoop, if_neg hmet]
    split
    · exact ih hclosing
    · next boss hfound => exact nomatch hboss.symm.trans hfound
  | case4 closure next pending hmet boss hboss ih =>
    have hclosing := h.enter (not_or.mp hmet).1
    rw [predecessorsOf, hboss] at hclosing
    rw [closeLoop, if_neg hmet]
    split
    · next hnone => exact nomatch hboss.symm.trans hnone
    · next other hfound =>
      cases hboss.symm.trans hfound
      exact ih hclosing

/-- The closure of a key holds the other keys it reaches. -/
theorem mem_predecessorClosure (d : RaidDefinition) (key k : String) :
    k ∈ predecessorClosure d key ↔ k ≠ key ∧ TransGen (Precedes d) key k := by
  apply mem_closeLoop
  constructor
  · intro k hk
    exact .single (mem_reverse.mp hk)
  · intro k hk
    simp at hk
  · intro a b ha hedge
    have hstart : a = key := by simpa using ha
    subst hstart
    exact .inr (.inr (mem_reverse.mpr hedge))

/-! ### Predecessor cycles -/

/-- Finished keys lead to finished keys only, and lie on no cycle. -/
def Finished (d : RaidDefinition) (color : Coloring) : Prop :=
  ∀ k : String, color[k]? = some .finished →
    (∀ b, Precedes d k b → color[b]? = some .finished) ∧ ¬ TransGen (Precedes d) k k

/-- What is reachable from a finished key is finished. -/
theorem Finished.reach (h : Finished d color) {a b : String} (ha : color[a]? = some .finished)
    (hreach : TransGen (Precedes d) a b) : color[b]? = some .finished := by
  induction hreach with
  | single hedge => exact (h a ha).1 _ hedge
  | tail _ hedge ih => exact (h _ ih).1 _ hedge

/-- Every key on the stack reaches `key`. -/
def StackReaches (d : RaidDefinition) (color : Coloring) (key : String) : Prop :=
  ∀ k : String, color[k]? = some .onStack → TransGen (Precedes d) k key

/-- What a search for cycles from `keys` comes to: a key on a cycle, or every key finished and
the stack as it was. -/
def Searched (d : RaidDefinition) (color : Coloring) (keys : List String) :
    Coloring × Option String → Prop
  | (_, some cycleKey) => TransGen (Precedes d) cycleKey cycleKey
  | (color', none) => Finished d color' ∧
      (∀ k : String, color'[k]? = some .onStack ↔ color[k]? = some .onStack) ∧
      (∀ k : String, color[k]? = some .finished → color'[k]? = some .finished) ∧
      ∀ k ∈ keys, color'[k]? = some .finished

/-- A search from each key in turn, all of which the stack reaches. -/
theorem searched_visitAll {search : Coloring → String → Option (Coloring × Option String)}
    (hsearch : ∀ color key r, Finished d color → StackReaches d color key →
      search color key = some r → Searched d color [key] r)
    {keys : List String} (hfinished : Finished d color)
    (hstack : ∀ key ∈ keys, StackReaches d color key) {r : Coloring × Option String}
    (h : visitAll search color keys = some r) : Searched d color keys r := by
  induction keys generalizing color with
  | nil =>
    cases h
    exact ⟨hfinished, fun _ => Iff.rfl, fun _ hk => hk, fun _ hk => nomatch hk⟩
  | cons key rest ih =>
    rw [visitAll] at h
    split at h
    · cases h
    · next color' cycleKey hfirst =>
      cases h
      exact hsearch color key _ hfinished (hstack key mem_cons_self) hfirst
    · next color' hfirst =>
      obtain ⟨hfinished', hkept, hgrows, hkey⟩ :=
        hsearch color key _ hfinished (hstack key mem_cons_self) hfirst
      have hrest := ih hfinished'
        (fun k hk a ha => hstack k (mem_cons_of_mem _ hk) a ((hkept a).mp ha)) h
      obtain ⟨color'', found⟩ := r
      cases found with
      | some cycleKey => exact hrest
      | none =>
        obtain ⟨hfinished'', hkept', hgrows', hall⟩ := hrest
        refine ⟨hfinished'', fun k => (hkept' k).trans (hkept k),
          fun k hk => hgrows' k (hgrows k hk), ?_⟩
        intro k hk
        rcases mem_cons.mp hk with rfl | hk
        · exact hgrows' _ (hkey _ mem_cons_self)
        · exact hall k hk

theorem getElem?_insert_color (color : Coloring) (key : String) (value : Color) (k : String) :
    (color.insert key value)[k]? = if key = k then some value else color[k]? := by
  rw [Std.ExtTreeMap.getElem?_insert]
  simp only [Std.LawfulEqOrd.compare_eq_iff_eq]

/-- Putting an unvisited key on the stack. -/
theorem Finished.push (h : Finished d color) (hkey : color[key]? = none) :
    Finished d (color.insert key .onStack) := by
  have hkept (k : String) (hk : color[k]? = some .finished) :
      (color.insert key .onStack)[k]? = some .finished := by
    rw [getElem?_insert_color, if_neg]
    · exact hk
    · rintro rfl
      exact nomatch hkey.symm.trans hk
  intro k hk
  rw [getElem?_insert_color] at hk
  split at hk
  · cases hk
  · exact ⟨fun b hedge => hkept b ((h k hk).1 b hedge), (h k hk).2⟩

/-- Finishing a key on the stack whose predecessors are finished. -/
theorem Finished.pop (h : Finished d color) (hkey : color[key]? = some .onStack)
    (hedges : ∀ b ∈ predecessorsOf d key, color[b]? = some .finished) :
    Finished d (color.insert key .finished) := by
  have hkept (k : String) (hk : color[k]? = some .finished) :
      (color.insert key .finished)[k]? = some .finished := by
    rw [getElem?_insert_color]
    split
    · rfl
    · exact hk
  intro k hk
  rw [getElem?_insert_color] at hk
  split at hk
  · next heq =>
    subst heq
    refine ⟨fun b hedge => hkept b (hedges b hedge), ?_⟩
    -- a cycle through the key would pass a finished predecessor and end at the key unfinished
    intro hcycle
    have hend : color[key]? = some .finished := by
      obtain ⟨b, hedge, hback⟩ := TransGen.head'_iff.mp hcycle
      rcases reflTransGen_iff_eq_or_transGen.mp hback with rfl | hpath
      · exact hedges _ hedge
      · exact h.reach (hedges b hedge) hpath
    exact nomatch hkey.symm.trans hend
  · exact ⟨fun b hedge => hkept b ((h k hk).1 b hedge), (h k hk).2⟩

theorem searched_visit (d : RaidDefinition) (fuel : Nat) {r : Coloring × Option String}
    (hfinished : Finished d color) (hstack : StackReaches d color key)
    (h : visit d fuel color key = some r) : Searched d color [key] r := by
  induction fuel generalizing color key r with
  | zero => cases h
  | succ fuel ih =>
    rw [visit] at h
    split at h
    · next hkey =>
      cases h
      exact hstack key hkey
    · next hkey =>
      cases h
      refine ⟨hfinished, fun _ => Iff.rfl, fun _ hk => hk, ?_⟩
      intro k hk
      rwa [mem_singleton.mp hk]
    · next hkey =>
      have hall (r : Coloring × Option String)
          (h : visitAll (visit d fuel) (color.insert key .onStack) (predecessorsOf d key) = some r) :
          Searched d (color.insert key .onStack) (predecessorsOf d key) r := by
        apply searched_visitAll (fun _ _ _ hf hs hr => ih hf hs hr) (hfinished.push hkey) _ h
        intro predecessor hedge k hk
        rw [getElem?_insert_color] at hk
        split at hk
        · next heq => exact .single (heq ▸ hedge)
        · exact (hstack k hk).tail hedge
      rw [predecessorsOf] at hall
      simp only at h
      split at h
      · cases h
      · next color' cycleKey hsome =>
        cases h
        exact hall _ hsome
      · next color' hnone =>
        cases h
        obtain ⟨hfinished', hkept, hgrows, hedges⟩ := hall _ hnone
        have hmark : color'[key]? = some .onStack := by
          rw [hkept, getElem?_insert_color, if_pos rfl]
        refine ⟨hfinished'.pop hmark hedges, ?_, ?_, ?_⟩
        · intro k
          rw [getElem?_insert_color]
          split
          · next heq => simp [← heq, hkey]
          · next hne => rw [hkept, getElem?_insert_color, if_neg hne]
        · intro k hk
          rw [getElem?_insert_color]
          split
          · rfl
          · next hne =>
            apply hgrows
            rwa [getElem?_insert_color, if_neg hne]
        · intro k hk
          rw [mem_singleton.mp hk, getElem?_insert_color, if_pos rfl]

/-- `HasPredecessorCycle` ends and tells whether a boss reaches itself; `PredecessorClosure` is
the set of the other keys reached. -/
theorem predecessor_walks_exact (d : RaidDefinition) :
    (∃ r, searchCycle d = some r) ∧
      ((hasPredecessorCycle d).isSome = true ↔
        ∃ boss ∈ d.bosses, TransGen (Precedes d) boss.key boss.key) ∧
      ∀ key k, k ∈ predecessorClosure d key ↔ k ≠ key ∧ TransGen (Precedes d) key k := by
  refine ⟨searchCycle_total d, ?_, mem_predecessorClosure d⟩
  obtain ⟨⟨color, found⟩, hr⟩ := searchCycle_total d
  have hempty (k : String) : (∅ : Coloring)[k]? = none := Std.ExtTreeMap.getElem?_empty
  have hsearched : Searched d ∅ (d.bosses.map BossDefinition.key) (color, found) := by
    apply searched_visitAll (fun _ _ _ hf hs h => searched_visit d _ hf hs h) _ _ hr
    · intro k hk
      exact nomatch (hempty k).symm.trans hk
    · intro key _ k hk
      exact nomatch (hempty k).symm.trans hk
  rw [hasPredecessorCycle, hr, Option.bind_some]
  cases found with
  | some cycleKey =>
    obtain ⟨predecessor, hedge, -⟩ := TransGen.head'_iff.mp hsearched
    obtain ⟨boss, hboss, rfl⟩ := exists_boss_of_precedes hedge
    simp only [Option.isSome_some, true_iff]
    exact ⟨boss, hboss, hsearched⟩
  | none =>
    obtain ⟨hfinished, -, -, hall⟩ := hsearched
    simp only [Option.isSome_none, Bool.false_eq_true, false_iff]
    rintro ⟨boss, hboss, hcycle⟩
    exact (hfinished boss.key (hall boss.key (mem_map_of_mem hboss))).2 hcycle

end TrinityCore.Bots.RaidLockout
