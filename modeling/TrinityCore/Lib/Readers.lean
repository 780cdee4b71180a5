import Mathlib.Data.List.Forall2
import Std.Data.ExtTreeMap.Lemmas

/-!
# Readers that lose nothing

A reader reflects a relation when two inputs that it accepts have one result exactly when the
relation holds of them: the relation says what the reader keeps. Lists and maps of what reads
this way are read this way.
-/

open List Option Std.ExtTreeMap

universe u v w

variable {α : Type u} {β : Type v} {γ : Type w}

/-- Of inputs in `P`, one result comes from those related by `Agree`. -/
def Reflects (P : α → Prop) (Agree : α → α → Prop) (reads : α → β → Prop) : Prop :=
  ∀ ⦃a b x y⦄, P a → P b → reads a x → reads b y → (x = y ↔ Agree a b)

namespace Reflects

variable {P : α → Prop} {Agree : α → α → Prop} {reads : α → β → Prop}

/-- The items of a list are read one after another. -/
theorem list (h : Reflects P Agree reads) :
    Reflects (fun l => ∀ a ∈ l, P a) (List.Forall₂ Agree) (List.Forall₂ reads) := by
  intro l m x y hl hm hx hy
  induction hx generalizing m y with
  | nil =>
    cases hy with
    | nil => simp
    | cons _ _ => simp
  | cons ha _ ih =>
    cases hy with
    | nil => simp
    | cons hb hy =>
      rw [forall_mem_cons] at hl hm
      rw [cons.injEq, forall₂_cons, h hl.1 hm.1 ha hb, ih hl.2 hm.2 hy]

end Reflects

/-! ### Lists of fallible readers -/

theorem forall₂_of_mapM_eq_some {f : α → Option β} {l : List α} {x : List β}
    (h : l.mapM f = some x) : List.Forall₂ (fun a b => f a = some b) l x := by
  induction l generalizing x with
  | nil =>
    cases h
    exact .nil
  | cons a l ih =>
    simp only [mapM_cons, Option.bind_eq_bind, Option.bind_eq_some_iff, Option.pure_def,
      Option.some.injEq] at h
    obtain ⟨b, hb, rest, hrest, rfl⟩ := h
    exact .cons hb (ih hrest)

theorem forall₂_of_mapM_eq_ok {ε : Type u} {f : α → Except ε β} {l : List α} {x : List β}
    (h : l.mapM f = .ok x) : List.Forall₂ (fun a b => f a = .ok b) l x := by
  induction l generalizing x with
  | nil =>
    cases h
    exact .nil
  | cons a l ih =>
    rw [mapM_cons] at h
    cases hb : f a with
    | error _ => simp [hb, bind, Except.bind] at h
    | ok b =>
      cases hrest : l.mapM f with
      | error _ => simp [hb, hrest, bind, Except.bind] at h
      | ok rest =>
        simp only [hb, hrest, bind, Except.bind, pure, Except.pure, Except.ok.injEq] at h
        subst h
        exact .cons hb (ih hrest)

/-! ### Readers that keep everything -/

/-- No two inputs have one result. -/
def KeepsAll (read : α → Option β) : Prop := ∀ ⦃a b x⦄, read a = some x → read b = some x → a = b

namespace KeepsAll

variable {f : α → Option β} {g : β → Option γ}

section

variable (hf : KeepsAll f)
include hf

/-- The results tell the inputs apart. -/
theorem eq_iff {a b : α} {x y : β} (hx : f a = some x) (hy : f b = some y) : x = y ↔ a = b := by
  constructor
  · rintro rfl
    exact hf hx hy
  · rintro rfl
    exact some.inj (hx.symm.trans hy)

theorem reflects : Reflects (fun _ => True) Eq fun a x => f a = some x :=
  fun _ _ _ _ _ _ => hf.eq_iff

theorem bind (hg : KeepsAll g) : KeepsAll fun a => (f a).bind g := by
  intro a b x ha hb
  obtain ⟨y, hy, hx⟩ := bind_eq_some_iff.mp ha
  obtain ⟨z, hz, hx'⟩ := bind_eq_some_iff.mp hb
  exact hf hy (hg hx hx' ▸ hz)

theorem map {h : β → γ} (hh : Function.Injective h) : KeepsAll fun a => (f a).map h := by
  intro a b x ha hb
  obtain ⟨y, hy, rfl⟩ := map_eq_some_iff.mp ha
  obtain ⟨z, hz, heq⟩ := map_eq_some_iff.mp hb
  exact hf hy (hh heq ▸ hz)

/-- An input that has to be there. -/
theorem required : KeepsAll fun a : Option α => a.bind f := by
  intro a b x ha hb
  obtain ⟨a, rfl, ha⟩ := bind_eq_some_iff.mp ha
  obtain ⟨b, rfl, hb⟩ := bind_eq_some_iff.mp hb
  rw [hf ha hb]

theorem mapM : KeepsAll (List.mapM f) := by
  intro l m x hl hm
  have hsame : List.Forall₂ Eq l m := (hf.reflects.list (fun _ _ => trivial)
    (fun _ _ => trivial) (forall₂_of_mapM_eq_some hl)
    (forall₂_of_mapM_eq_some hm)).mp rfl
  rwa [forall₂_eq_eq_eq] at hsame

end

end KeepsAll

/-! ### Maps -/

section Maps

variable {κ : Type v} [Ord κ] [Std.TransOrd κ] [Std.LawfulEqOrd κ] [DecidableEq κ]

/-- A map built from entries with distinct keys has just these. -/
theorem Std.ExtTreeMap.getElem?_ofList_iff {l : List (κ × β)} (hl : (l.map Prod.fst).Nodup)
    {key : κ} {value : β} : (ofList l)[key]? = some value ↔ (key, value) ∈ l := by
  have hdistinct : l.Pairwise fun a b => ¬ compare a.1 b.1 = .eq := by
    rw [List.Nodup, pairwise_map] at hl
    exact hl.imp fun hne heq => hne (Std.LawfulEqOrd.eq_of_compare heq)
  have hof {value : β} (h : (key, value) ∈ l) : (ofList l)[key]? = some value :=
    getElem?_ofList_of_mem Std.ReflOrd.compare_self hdistinct h
  constructor
  · intro h
    cases hmem : (l.map Prod.fst).contains key with
    | false => rw [getElem?_ofList_of_contains_eq_false hmem] at h; cases h
    | true =>
      obtain ⟨⟨_, other⟩, hentry, rfl⟩ := List.mem_map.mp (List.contains_iff_mem.mp hmem)
      rw [hof hentry] at h
      cases h
      exact hentry
  · exact hof

/-- The entries of an object are read into a map: its members are kept, without their order. -/
theorem Reflects.map {f : α → Option (κ × β)} {name : α → γ}
    (hname : ∀ ⦃a b x y⦄, f a = some x → f b = some y → x.1 = y.1 → name a = name b)
    (hf : KeepsAll f) :
    Reflects (fun l : List α => (l.map name).Nodup) (fun l m => ∀ a, a ∈ l ↔ a ∈ m)
      (fun l (map : Std.ExtTreeMap κ β) =>
        ∃ entries, l.mapM f = some entries ∧ map = ofList entries) := by
  rintro l m _ _ hl hm ⟨x, hx, rfl⟩ ⟨y, hy, rfl⟩
  have hread {l : List α} {x : List (κ × β)} (h : l.mapM f = some x) : l.map f = x.map some := by
    rw [← forall₂_eq_eq_eq, forall₂_map_left_iff, forall₂_map_right_iff]
    exact forall₂_of_mapM_eq_some h
  have hmem {l : List α} {x : List (κ × β)} (h : l.mapM f = some x) (entry : κ × β) :
      entry ∈ x ↔ ∃ a ∈ l, f a = some entry := by
    rw [← List.mem_map, hread h, List.mem_map_of_injective fun _ _ => some.inj]
  have hlift {l m : List α} {x y : List (κ × β)} (hx : l.mapM f = some x) (hy : m.mapM f = some y)
      (hsub : ∀ entry ∈ x, entry ∈ y) (a : α) (ha : a ∈ l) : a ∈ m := by
    have hentry : f a ∈ x.map some := hread hx ▸ mem_map_of_mem ha
    obtain ⟨entry, hentry, heq⟩ := mem_map.mp hentry
    obtain ⟨b, hb, hreadb⟩ := (hmem hy entry).mp (hsub entry hentry)
    exact hf hreadb heq.symm ▸ hb
  have hkeys {l : List α} {x : List (κ × β)} (hl : (l.map name).Nodup) (h : l.mapM f = some x) :
      (x.map Prod.fst).Nodup := by
    have hpairs : (x.map some).Pairwise fun o p => ∀ e e', o = some e → p = some e' → e.1 ≠ e'.1 := by
      rw [← hread h, pairwise_map]
      rw [List.Nodup, pairwise_map] at hl
      exact hl.imp fun hne e e' he he' heq => hne (hname he he' heq)
    rw [pairwise_map] at hpairs
    exact pairwise_map.mpr (hpairs.imp fun hne => hne _ _ rfl rfl)
  have hentries : ofList x = ofList y ↔
      ∀ entry, entry ∈ x ↔ entry ∈ y := by
    constructor
    · intro heq entry
      rw [← getElem?_ofList_iff (hkeys hl hx), heq,
        getElem?_ofList_iff (hkeys hm hy)]
    · intro heq
      refine ext_getElem? fun key => ext fun value => ?_
      rw [getElem?_ofList_iff (hkeys hl hx),
        getElem?_ofList_iff (hkeys hm hy), heq]
  rw [hentries]
  constructor
  · intro heq a
    exact ⟨hlift hx hy (fun entry => (heq entry).mp) a, hlift hy hx (fun entry => (heq entry).mpr) a⟩
  · intro heq entry
    simp only [hmem hx, hmem hy, heq]

end Maps
