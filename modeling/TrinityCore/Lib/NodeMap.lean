import TrinityCore.Lib.CountedMap
import TrinityCore.Lib.StateMachine

/-!
# Maps whose entries are objects

A map that stores its values in nodes: overwriting a value keeps the node, so a pointer to
the node sees the new value; erasing a key destroys the node, and storing under the key again
makes another one. A node has an identity that is never used twice. An index by some attribute
of the values holds such identities. It is live when each attribute it lists leads to a stored
node whose value still has that attribute; the lemmas say which operations keep it so.
-/

universe u v w

/-- A stored object: its identity and the value it holds. -/
structure Node (β : Type v) where
  ref : Nat
  value : β
  deriving DecidableEq, Repr

/-- A map from keys to nodes. No two keys share a node, and no identity from `next` on is
in use. -/
structure NodeMap (α : Type u) (β : Type v) [DecidableEq α] where
  nodes : AList fun _ : α => Node β
  next : Nat
  below : ∀ a n, nodes.lookup a = some n → n.ref < next
  distinct : ∀ a b m n, nodes.lookup a = some m → nodes.lookup b = some n → m.ref = n.ref → a = b

namespace NodeMap

open CountedMap List Option

variable {α : Type u} {β : Type v} [DecidableEq α]

/-- The map before anything was stored. -/
def empty : NodeMap α β where
  nodes := ∅
  next := 0
  below := fun _ _ h => by simp at h
  distinct := fun _ _ _ _ h => by simp at h

/-- The node stored under a key. -/
def find (m : NodeMap α β) (a : α) : Option (Node β) := m.nodes.lookup a

/-- The keys in iteration order. -/
def keys (m : NodeMap α β) : List α := m.nodes.keys

/-- The identity an assignment to the key `a` writes through: that of the stored node, or
a new one. -/
def refOf (m : NodeMap α β) (a : α) : Nat :=
  match m.find a with
  | some n => n.ref
  | none => m.next

theorem lookup_write (m : NodeMap α β) (a : α) (v : β) (b : α) :
    (m.nodes.insert a ⟨m.refOf a, v⟩).lookup b =
      if b = a then some ⟨m.refOf a, v⟩ else m.nodes.lookup b := lookup_insert_if b

theorem refOf_lt (m : NodeMap α β) (a : α) : m.refOf a < m.next + 1 := by
  unfold refOf
  split
  · next n h => exact Nat.lt_succ_of_lt (m.below a n h)
  · exact Nat.lt_succ_self _

theorem eq_of_refOf_eq (m : NodeMap α β) {a b : α} {n : Node β}
    (hb : m.nodes.lookup b = some n) (h : m.refOf a = n.ref) : b = a := by
  unfold refOf at h
  split at h
  · next k hk => exact m.distinct b a n k hb hk h.symm
  · next hk =>
    have hlt : n.ref < m.next := m.below b n hb
    omega

/-- Assign a value to a key. -/
def write (m : NodeMap α β) (a : α) (v : β) : NodeMap α β where
  nodes := m.nodes.insert a ⟨m.refOf a, v⟩
  next := m.next + 1
  below := by
    intro b n h
    rw [lookup_write] at h
    split at h
    · cases h
      exact m.refOf_lt a
    · exact Nat.lt_succ_of_lt (m.below b n h)
  distinct := by
    intro b c p q hb hc hpq
    rw [lookup_write] at hb hc
    split at hb <;> split at hc
    · next h₁ h₂ => rw [h₁, h₂]
    · next h₁ h₂ =>
      cases hb
      rw [h₁, m.eq_of_refOf_eq hc hpq]
    · next h₁ h₂ =>
      cases hc
      rw [h₂, m.eq_of_refOf_eq hb hpq.symm]
    · exact m.distinct b c p q hb hc hpq

/-- Destroy the node under a key. -/
def erase (m : NodeMap α β) (a : α) : NodeMap α β where
  nodes := m.nodes.erase a
  next := m.next
  below := by
    intro b n h
    rw [lookup_erase_if] at h
    split at h
    · cases h
    · exact m.below b n h
  distinct := by
    intro b c p q hb hc hpq
    rw [lookup_erase_if] at hb hc
    split at hb
    · cases hb
    · split at hc
      · cases hc
      · exact m.distinct b c p q hb hc hpq

/-- Destroy every node. -/
def clear (m : NodeMap α β) : NodeMap α β where
  nodes := ∅
  next := m.next
  below := fun _ _ h => by simp at h
  distinct := fun _ _ _ _ h => by simp at h

/-- A copy of the values. -/
def values (m : NodeMap α β) : AList fun _ : α => β where
  entries := m.nodes.entries.map fun e => ⟨e.1, e.2.value⟩
  nodupKeys := by
    have hkeys : (m.nodes.entries.map fun e => (⟨e.1, e.2.value⟩ : Sigma fun _ : α => β)).keys =
        m.nodes.entries.keys := by
      simp [List.keys, Function.comp_def]
    show List.Nodup (List.keys _)
    rw [hkeys]
    exact m.nodes.nodupKeys

/-- The value behind a pointer, if its node is still stored. -/
def deref (m : NodeMap α β) (r : Nat) : Option β :=
  (m.nodes.entries.find? fun e => e.2.ref == r).map fun e => e.2.value

variable {m : NodeMap α β} {a b : α} {v : β} {n : Node β}

@[simp] theorem find_empty : (empty : NodeMap α β).find a = none := by
  show (∅ : AList fun _ : α => Node β).lookup a = none
  simp

theorem find_write : (m.write a v).find b = if b = a then some ⟨m.refOf a, v⟩ else m.find b :=
  lookup_write m a v b

@[simp] theorem find_write_self : (m.write a v).find a = some ⟨m.refOf a, v⟩ := by
  rw [find_write, if_pos rfl]

theorem find_write_of_ne (h : b ≠ a) : (m.write a v).find b = m.find b := by
  rw [find_write, if_neg h]

theorem find_erase : (m.erase a).find b = if b = a then none else m.find b := lookup_erase_if b

theorem refOf_of_find (h : m.find a = some n) : m.refOf a = n.ref := by
  unfold refOf
  rw [h]

/-- Only the key of the written node refers to it. -/
theorem find_ref_ne_refOf (h : b ≠ a) (hb : m.find b = some n) : n.ref ≠ m.refOf a := by
  intro heq
  exact h (m.eq_of_refOf_eq hb heq.symm)

theorem mem_keys : a ∈ m.keys ↔ (m.find a).isSome := by
  show a ∈ m.nodes ↔ _
  exact AList.lookup_isSome.symm

/-- A pointer to a stored node reads its value. -/
theorem deref_of_find (h : m.find a = some n) : m.deref n.ref = some n.value := by
  have hmem : Sigma.mk a n ∈ m.nodes.entries := AList.mem_lookup_iff.mp h
  show (m.nodes.entries.find? fun e => e.2.ref == n.ref).map _ = _
  cases hfind : m.nodes.entries.find? fun e => e.2.ref == n.ref with
  | none =>
    have hnone := find?_eq_none.mp hfind _ hmem
    simp at hnone
  | some e =>
    have hrefs : e.2.ref = n.ref := by
      have hpred := find?_some hfind
      simpa using hpred
    have he : m.nodes.lookup e.1 = some e.2 :=
      AList.mem_lookup_iff.mpr (mem_of_find?_eq_some hfind)
    have hkey : e.1 = a := m.distinct _ _ _ _ he h hrefs
    rw [hkey] at he
    have hnode : e.2 = n := some.inj (he.symm.trans h)
    rw [map_some, hnode]

/-- A pointer that may be read through leads to a stored node. -/
theorem find_of_deref {r : Nat} (h : m.deref r = some v) : ∃ a n, m.find a = some n ∧ n.ref = r ∧
    n.value = v := by
  unfold deref at h
  rw [map_eq_some_iff] at h
  obtain ⟨e, hfind, hvalue⟩ := h
  have hnode : m.find e.1 = some e.2 := AList.mem_lookup_iff.mpr (mem_of_find?_eq_some hfind)
  have href := find?_some hfind
  exact ⟨e.1, e.2, hnode, by simpa using href, hvalue⟩

/-- After a write the pointer to the written node reads the new value, and the other pointers
read what they did. -/
theorem deref_write_of_find (h : m.find b = some n) :
    (m.write a v).deref n.ref = some (if b = a then v else n.value) := by
  by_cases hba : b = a
  · subst hba
    have hwritten : (m.write b v).find b = some ⟨n.ref, v⟩ := by
      rw [find_write_self, refOf_of_find h]
    rw [if_pos rfl]
    exact deref_of_find hwritten
  · rw [if_neg hba]
    exact deref_of_find ((find_write_of_ne hba).trans h)

/-! ### Indices -/

variable {γ : Type w} [DecidableEq γ] {attr : β → γ} {index : AList fun _ : γ => Nat} {c : γ}

/-- What the index lists under `c` is a stored node whose value has the attribute `c`. -/
def LiveAt (attr : β → γ) (m : NodeMap α β) (index : AList fun _ : γ => Nat) (c : γ) : Prop :=
  ∀ r, index.lookup c = some r → ∃ a n, m.find a = some n ∧ n.ref = r ∧ attr n.value = c

/-- The index is live under every attribute. -/
def Live (attr : β → γ) (m : NodeMap α β) (index : AList fun _ : γ => Nat) : Prop :=
  ∀ c, LiveAt attr m index c

/-- If the index leads to the node under `a`, a value of attribute `c` written there leaves
that node under the same attribute. -/
def keepsAttr (attr : β → γ) (m : NodeMap α β) (index : AList fun _ : γ => Nat) (a : α) (c : γ) :
    Bool :=
  match m.find a with
  | none => true
  | some n => index.lookup (attr n.value) != some n.ref || c == attr n.value

theorem live_empty (m : NodeMap α β) : Live attr m ∅ := by
  intro c r h
  simp at h

/-- The index leads to stored nodes only. -/
def Stored (m : NodeMap α β) (index : AList fun _ : γ => Nat) : Prop :=
  ∀ c r, index.lookup c = some r → ∃ a n, m.find a = some n ∧ n.ref = r

theorem Live.stored (h : Live attr m index) : Stored m index := by
  intro c r hc
  obtain ⟨a, n, hfind, hr, -⟩ := h c r hc
  exact ⟨a, n, hfind, hr⟩

/-- A pointer the index holds may be read through. -/
theorem Stored.deref (h : Stored m index) {r : Nat} (hc : index.lookup c = some r) :
    ∃ v, m.deref r = some v := by
  obtain ⟨a, n, hfind, hr⟩ := h c r hc
  exact ⟨n.value, by rw [← hr, deref_of_find hfind]⟩

/-- A write destroys no node. -/
theorem Stored.write (h : Stored m index) (a : α) (v : β) : Stored (m.write a v) index := by
  intro c r hc
  obtain ⟨b, n, hfind, hr⟩ := h c r hc
  by_cases hba : b = a
  · subst hba
    exact ⟨b, _, find_write_self, (refOf_of_find hfind).trans hr⟩
  · exact ⟨b, n, (find_write_of_ne hba).trans hfind, hr⟩

/-- A live index stays live when it drops an attribute. -/
theorem Live.eraseIndex (h : Live attr m index) (c : γ) : Live attr m (index.erase c) := by
  intro d r hd
  rw [lookup_erase_if] at hd
  split at hd
  · cases hd
  · exact h d r hd

/-- A live index stays live when a node goes together with its attribute. -/
theorem Live.erase (h : Live attr m index) (ha : m.find a = some n) :
    Live attr (m.erase a) (index.erase (attr n.value)) := by
  intro d r hd
  rw [lookup_erase_if] at hd
  split at hd
  · cases hd
  · next hne =>
    obtain ⟨b, k, hb, hr, hattr⟩ := h d r hd
    refine ⟨b, k, ?_, hr, hattr⟩
    rw [find_erase, if_neg ?_, hb]
    rintro rfl
    cases hb.symm.trans ha
    exact hne hattr.symm

/-- A write leaves the index live under `d` unless it takes that attribute from the node the
index leads to. -/
theorem Live.liveAt_write_iff (h : Live attr m index) (d : γ) :
    LiveAt attr (m.write a v) index d ↔
      ∀ n, m.find a = some n → index.lookup d = some n.ref → attr v = d := by
  constructor
  · intro hlive n hn hd
    obtain ⟨b, k, hb, hr, hattr⟩ := hlive n.ref hd
    by_cases hba : b = a
    · subst hba
      rw [find_write_self] at hb
      cases hb
      exact hattr
    · rw [find_write_of_ne hba] at hb
      exact absurd hr ((refOf_of_find hn) ▸ find_ref_ne_refOf hba hb)
  · intro hkeep r hr
    obtain ⟨b, k, hb, hkr, hattr⟩ := h d r hr
    by_cases hba : b = a
    · subst hba
      refine ⟨b, _, find_write_self, (refOf_of_find hb).trans hkr, ?_⟩
      exact hkeep k hb (hkr ▸ hr)
    · exact ⟨b, k, (find_write_of_ne hba).trans hb, hkr, hattr⟩

/-- A node the live index leads to is listed under its own attribute. -/
theorem Live.attr_eq (h : Live attr m index) (ha : m.find a = some n)
    (hc : index.lookup c = some n.ref) : attr n.value = c := by
  obtain ⟨b, k, hb, hr, hattr⟩ := h c n.ref hc
  have hba : b = a := m.distinct b a k n hb ha hr
  subst hba
  cases hb.symm.trans ha
  exact hattr

theorem keepsAttr_iff {a : α} : keepsAttr attr m index a c = true ↔
    ∀ n, m.find a = some n → index.lookup (attr n.value) = some n.ref → c = attr n.value := by
  unfold keepsAttr
  cases m.find a with
  | none => simp
  | some n =>
    simp only [some.injEq, forall_eq', Bool.or_eq_true, bne_iff_ne, beq_iff_eq]
    exact ⟨fun h hl => h.resolve_left (fun hne => hne hl), fun h => Classical.or_iff_not_imp_left.mpr
      fun hl => h (not_not.mp hl)⟩

/-- A write keeps the index live exactly when it keeps the attribute of a listed node. -/
theorem Live.write_iff (h : Live attr m index) :
    Live attr (m.write a v) index ↔ keepsAttr attr m index a (attr v) = true := by
  rw [keepsAttr_iff]
  constructor
  · intro hlive n hn hl
    exact (h.liveAt_write_iff _).mp (hlive _) n hn hl
  · intro hkeep d
    refine (h.liveAt_write_iff d).mpr fun n hn hl => ?_
    have hattr : attr n.value = d := h.attr_eq hn hl
    rw [hkeep n hn (hattr ▸ hl), hattr]

/-- The same when the written node is then listed under its new attribute. -/
theorem Live.write_insert_iff (h : Live attr m index) :
    Live attr (m.write a v) (index.insert (attr v) ((m.write a v).refOf a)) ↔
      keepsAttr attr m index a (attr v) = true := by
  rw [keepsAttr_iff]
  constructor
  · intro hlive n hn hl
    by_contra hne
    have hold : (index.insert (attr v) ((m.write a v).refOf a)).lookup (attr n.value) =
        some n.ref := by
      rw [lookup_insert_if, if_neg (Ne.symm hne), hl]
    have hnew : (m.write a v).find a = some ⟨m.refOf a, v⟩ := find_write_self
    have hat := Live.attr_eq (n := ⟨m.refOf a, v⟩) hlive hnew
      (hold.trans (congrArg some (refOf_of_find hn).symm))
    exact hne hat
  · intro hkeep d r hd
    rw [lookup_insert_if] at hd
    split at hd
    · next heq =>
      cases hd
      exact ⟨a, _, find_write_self, (refOf_of_find find_write_self).symm, heq.symm⟩
    · refine (h.liveAt_write_iff d).mpr (fun n hn hl => ?_) r hd
      have hattr : attr n.value = d := h.attr_eq hn hl
      rw [hkeep n hn (hattr ▸ hl), hattr]

/-- The index leads to the node under a key by an attribute the node no longer has. -/
def Stale (attr : β → γ) (m : NodeMap α β) (index : AList fun _ : γ => Nat) (a : α) : Prop :=
  ∃ c n, m.find a = some n ∧ index.lookup c = some n.ref ∧ attr n.value ≠ c

theorem Stale.not_live (h : Stale attr m index a) : ¬Live attr m index := by
  intro hlive
  obtain ⟨c, n, hn, hc, hne⟩ := h
  exact hne (hlive.attr_eq hn hc)

/-- A write that does not keep the attribute of a listed node makes it stale. -/
theorem stale_write (h : ¬keepsAttr attr m index a (attr v) = true) :
    Stale attr (m.write a v) index a := by
  rw [keepsAttr_iff] at h
  push Not at h
  obtain ⟨n, hn, hl, hne⟩ := h
  refine ⟨attr n.value, _, find_write_self, ?_, hne⟩
  rw [refOf_of_find hn]
  exact hl

/-- The attribute a write has to keep depends on the node it writes to. -/
theorem keepsAttr_congr {m' : NodeMap α β} (h : m'.find a = m.find a) :
    keepsAttr attr m' index a c = keepsAttr attr m index a c := by
  unfold keepsAttr
  rw [h]

/-- A write to a free key keeps every attribute. -/
theorem keepsAttr_of_find_none (h : m.find a = none) : keepsAttr attr m index a c = true := by
  unfold keepsAttr
  rw [h]

/-- A loop that writes at most to the key of its round, over different keys, leaves a live
index live exactly when each of its writes keeps the attribute. -/
theorem live_foldlM_iff {σ : Type u} {failure : Type v} {store : σ → NodeMap α β}
    (index : σ → AList fun _ : γ => Nat) {f : σ → α → Except failure σ} {keeps : σ → α → Prop}
    (hindex : ∀ s a s', f s a = .ok s' → index s' = index s)
    (hframe : ∀ s a s', f s a = .ok s' → ∀ b, b ≠ a →
      (store s').find b = (store s).find b ∧ (keeps s' b ↔ keeps s b))
    (hlive : ∀ s a s', f s a = .ok s' → Live attr (store s) (index s) → keeps s a →
      Live attr (store s') (index s'))
    (hstale : ∀ s a s', f s a = .ok s' → Live attr (store s) (index s) → ¬keeps s a →
      Stale attr (store s') (index s') a)
    {l : List α} (hl : l.Nodup) {s s' : σ} (h : l.foldlM f s = .ok s')
    (hs : Live attr (store s) (index s)) :
    Live attr (store s') (index s') ↔ ∀ a ∈ l, keeps s a := by
  -- A stale node stays so in the rounds of other keys.
  have hstays : ∀ (l : List α) (s s' : σ), l.foldlM f s = .ok s' → ∀ a, a ∉ l →
      Stale attr (store s) (index s) a → Stale attr (store s') (index s') a := by
    intro l
    induction l with
    | nil =>
      intro s s' h a _ hstale
      cases h
      exact hstale
    | cons b l ih =>
      intro s s' h a ha hstale
      obtain ⟨t, hb, hrest⟩ := StateMachine.foldlM_cons_eq_ok.mp h
      rw [mem_cons, not_or] at ha
      refine ih t s' hrest a ha.2 ?_
      obtain ⟨c, n, hn, hc, hne⟩ := hstale
      refine ⟨c, n, ((hframe s b t hb a ha.1).1).trans hn, ?_, hne⟩
      rw [hindex s b t hb]
      exact hc
  induction l generalizing s with
  | nil =>
    cases h
    simpa using hs
  | cons a l ih =>
    obtain ⟨t, ha, hrest⟩ := StateMachine.foldlM_cons_eq_ok.mp h
    rw [nodup_cons] at hl
    rw [forall_mem_cons]
    by_cases hk : keeps s a
    · have htail := ih hl.2 hrest (hlive s a t ha hs hk)
      have hother : ∀ b ∈ l, (keeps t b ↔ keeps s b) := by
        intro b hb
        exact (hframe s a t ha b fun heq => hl.1 (heq ▸ hb)).2
      exact ⟨fun hall => ⟨hk, fun b hb => (hother b hb).mp (htail.mp hall b hb)⟩,
        fun hall => htail.mpr fun b hb => (hother b hb).mpr (hall.2 b hb)⟩
    · have hst : Stale attr (store s') (index s') a :=
        hstays l t s' hrest a hl.1 (hstale s a t ha hs hk)
      exact ⟨fun hlive' => absurd hlive' hst.not_live, fun hall => absurd hall.1 hk⟩

end NodeMap
