import Mathlib.Data.List.Induction

/-!
# Runs of a deterministic state machine

A machine is a step function `step : σ → ε → σ` over states `σ` and events `ε`.
A run folds the step over a list of events. The induction principles say once
that a property which holds initially and survives every step holds after every
run, also when each step has to meet a condition in the state it starts from.
-/

namespace StateMachine

open List

universe u v w

variable {σ : Type u} {ε : Type v} {τ : Type w}

/-- The state a run of `events` from `s` ends in. -/
def run (step : σ → ε → σ) (s : σ) (events : List ε) : σ := events.foldl step s

/-- Every event of the run meets `ok` in the state it is applied to. -/
def Admits (step : σ → ε → σ) (ok : σ → ε → Prop) : σ → List ε → Prop
  | _, [] => True
  | s, e :: rest => ok s e ∧ Admits step ok (step s e) rest

variable {step : σ → ε → σ} {ok : σ → ε → Prop} {s : σ}

instance decidableAdmits [∀ s e, Decidable (ok s e)] :
    (s : σ) → (events : List ε) → Decidable (Admits step ok s events)
  | _, [] => .isTrue trivial
  | s, e :: rest =>
    have := decidableAdmits (step s e) rest
    inferInstanceAs (Decidable (_ ∧ _))

@[simp] theorem run_nil : run step s [] = s := rfl

@[simp] theorem run_cons (e : ε) (events : List ε) :
    run step s (e :: events) = run step (step s e) events := rfl

/-- A run splits at every point. -/
theorem run_append (xs ys : List ε) :
    run step s (xs ++ ys) = run step (run step s xs) ys := foldl_append

/-- A run ends with the step of its last event. -/
theorem run_concat (events : List ε) (e : ε) :
    run step s (events ++ [e]) = step (run step s events) e := by
  rw [run_append, run_cons, run_nil]

/-- A condition on a run splits at every point. -/
theorem admits_append (xs ys : List ε) :
    Admits step ok s (xs ++ ys) ↔ Admits step ok s xs ∧ Admits step ok (run step s xs) ys := by
  induction xs generalizing s with
  | nil => simp [Admits]
  | cons e xs ih => simp [Admits, ih, and_assoc]

variable {inv sound : σ → Prop} {ok' called : σ → ε → Prop} {events : List ε}

/-- What holds initially and survives every step holds after every run. -/
theorem run_invariant (hinit : inv s) (hstep : ∀ t e, inv t → inv (step t e)) (events : List ε) :
    inv (run step s events) := by
  induction events generalizing s with
  | nil => exact hinit
  | cons e events ih => exact ih (hstep s e hinit)

/-- The same for runs whose steps all meet a condition. -/
theorem run_invariant_of_admits (hinit : inv s) (hstep : ∀ t e, inv t → ok t e → inv (step t e))
    (events : List ε) (hok : Admits step ok s events) : inv (run step s events) := by
  induction events generalizing s with
  | nil => exact hinit
  | cons e events ih => exact ih (hstep s e hinit hok.1) hok.2

/-- A view of the state that no event of the run changes. -/
theorem run_view_of_unchanged {v : σ → τ} (hsame : ∀ t, ∀ e ∈ events, v (step t e) = v t) (s : σ) :
    v (run step s events) = v s := by
  induction events generalizing s with
  | nil => rfl
  | cons e events ih =>
    rw [run_cons, ih fun t a ha => hsame t a (mem_cons_of_mem e ha), hsame s e mem_cons_self]

/-- A view that one event changes, when the others do not. -/
theorem run_view_of_mem {v : σ → τ} {g : τ → τ} {e : ε} (hnodup : events.Nodup)
    (hmem : e ∈ events) (hchange : ∀ t, v (step t e) = g (v t))
    (hsame : ∀ t, ∀ a ∈ events, a ≠ e → v (step t a) = v t) (s : σ) :
    v (run step s events) = g (v s) := by
  induction events generalizing s with
  | nil => cases hmem
  | cons a events ih =>
    obtain ⟨hnew, hnodup⟩ := nodup_cons.mp hnodup
    have hrest := fun t b hb => hsame t b (mem_cons_of_mem a hb)
    rw [run_cons]
    rcases mem_cons.mp hmem with rfl | hmem
    · rw [run_view_of_unchanged fun t b hb => hrest t b hb fun heq => hnew (heq ▸ hb), hchange]
    · rw [ih hnodup hmem hrest, hsame s a mem_cons_self fun heq => hnew (heq ▸ hmem)]

/-- Two conditions that all steps meet. -/
theorem Admits.and (h : Admits step ok s events) (h' : Admits step ok' s events) :
    Admits step (fun t e => ok t e ∧ ok' t e) s events := by
  induction events generalizing s with
  | nil => trivial
  | cons e events ih => exact ⟨⟨h.1, h'.1⟩, ih h.2 h'.2⟩

/-- A condition that every step meets. -/
theorem admits_of_forall (h : ∀ t e, ok t e) (events : List ε) : Admits step ok s events := by
  induction events generalizing s with
  | nil => trivial
  | cons e events ih => exact ⟨h s e, ih⟩

/-- A condition that every event of the run meets in all states. -/
theorem admits_of_forall_mem (h : ∀ e ∈ events, ∀ t, ok t e) : Admits step ok s events := by
  induction events generalizing s with
  | nil => trivial
  | cons e events ih =>
    exact ⟨h e mem_cons_self s, ih fun a ha => h a (mem_cons_of_mem e ha)⟩

/-- Two conditions that are the same in states with an invariant. -/
theorem admits_congr_of_invariant (hinit : inv s) (hkeep : ∀ t e, inv t → inv (step t e))
    (hok : ∀ t e, inv t → (ok t e ↔ ok' t e)) (events : List ε) :
    Admits step ok s events ↔ Admits step ok' s events := by
  induction events generalizing s with
  | nil => exact Iff.rfl
  | cons e events ih => exact and_congr (hok s e hinit) (ih (hkeep s e hinit))

/-- Where a property follows from an invariant that steps meeting a condition keep, and any other
step breaks the property, all states of a run have the property exactly when all its steps meet
the condition. Every step meets what its caller promises. -/
theorem run_prefixes_iff_of_invariant (hinit : inv s) (hsound : ∀ t, inv t → sound t)
    (hkeep : ∀ t e, inv t → called t e → ok t e → inv (step t e))
    (hbreak : ∀ t e, inv t → called t e → ¬ok t e → ¬sound (step t e))
    (hcalled : Admits step called s events) :
    (∀ before, before <+: events → sound (run step s before)) ↔ Admits step ok s events := by
  induction events generalizing s with
  | nil =>
    refine ⟨fun _ => trivial, fun _ before hbefore => ?_⟩
    rw [prefix_nil.mp hbefore]
    exact hsound s hinit
  | cons e events ih =>
    constructor
    · intro hall
      have hok : ok s e := by
        by_contra hnot
        exact hbreak s e hinit hcalled.1 hnot
          (hall [e] (prefix_append [e] events))
      refine ⟨hok, (ih (hkeep s e hinit hcalled.1 hok) hcalled.2).mp fun before hbefore => ?_⟩
      exact hall (e :: before) (cons_prefix_cons.mpr ⟨rfl, hbefore⟩)
    · intro hok before hbefore
      cases before with
      | nil => exact hsound s hinit
      | cons a before =>
        obtain ⟨rfl, hrest⟩ := cons_prefix_cons.mp hbefore
        exact (ih (hkeep s a hinit hcalled.1 hok.1) hcalled.2).mpr hok.2 before hrest

/-- The same for steps that need no promise of their callers. -/
theorem run_prefixes_iff_of_strengthening (hinit : inv s) (hsound : ∀ t, inv t → sound t)
    (hkeep : ∀ t e, inv t → ok t e → inv (step t e))
    (hbreak : ∀ t e, inv t → ¬ok t e → ¬sound (step t e)) (events : List ε) :
    (∀ before, before <+: events → sound (run step s before)) ↔ Admits step ok s events :=
  run_prefixes_iff_of_invariant hinit hsound (fun t e hinv _ => hkeep t e hinv)
    (fun t e hinv _ => hbreak t e hinv) (admits_of_forall (fun _ _ => trivial) events)

/-- Where a step keeps a property exactly when it meets a condition, all states of a run have
the property exactly when all its steps meet the condition. -/
theorem run_prefixes_iff (inv : σ → Prop) (hinit : inv s)
    (hstep : ∀ t e, inv t → called t e → (inv (step t e) ↔ ok t e))
    (hcalled : Admits step called s events) :
    (∀ before, before <+: events → inv (run step s before)) ↔ Admits step ok s events :=
  run_prefixes_iff_of_invariant hinit (fun _ hinv => hinv)
    (fun t e hinv hcall => (hstep t e hinv hcall).mpr)
    (fun t e hinv hcall hnot hkept => hnot ((hstep t e hinv hcall).mp hkept)) hcalled

/-- A relation to an abstract machine that every step keeps is kept by every run. -/
theorem run_simulation {abstractStep : τ → ε → τ} {rel : σ → τ → Prop} {t : τ}
    (hinit : rel s t)
    (hstep : ∀ a b e, rel a b → rel (step a e) (abstractStep b e)) (events : List ε) :
    rel (run step s events) (run abstractStep t events) := by
  induction events generalizing s t with
  | nil => exact hinit
  | cons e events ih => exact ih (hstep s t e hinit)

/-- The same for runs whose steps meet a condition of the abstract machine. -/
theorem run_simulation_of_admits {abstractStep : τ → ε → τ} {ok : τ → ε → Prop}
    {rel : σ → τ → Prop} {t : τ} (hinit : rel s t)
    (hstep : ∀ a b e, rel a b → ok b e → rel (step a e) (abstractStep b e)) (events : List ε)
    (hok : Admits abstractStep ok t events) :
    rel (run step s events) (run abstractStep t events) := by
  induction events generalizing s t with
  | nil => exact hinit
  | cons e events ih => exact ih (hstep s t e hinit hok.1) hok.2

/-! ### Provenance -/

/-- At some step of the run `act` held of the event, and `hold` of every state since. -/
def Since (step : σ → ε → σ) (s : σ) (act : σ → ε → Prop) (hold : σ → Prop)
    (events : List ε) : Prop :=
  ∃ before e after, events = before ++ e :: after ∧ act (run step s before) e ∧
    ∀ mid, mid <+: after → hold (run step s (before ++ e :: mid))

variable {act : σ → ε → Prop} {hold : σ → Prop} {events : List ε}

/-- What the last event does holds since then. -/
theorem since_now {e : ε} (hact : act (run step s events) e)
    (hhold : hold (step (run step s events) e)) : Since step s act hold (events ++ [e]) := by
  refine ⟨events, e, [], rfl, hact, fun mid hmid => ?_⟩
  rw [prefix_nil.mp hmid, run_concat]
  exact hhold

/-- What holds since some step and survives one more still holds since then. -/
theorem Since.later {e : ε} (h : Since step s act hold events)
    (hhold : hold (run step s (events ++ [e]))) : Since step s act hold (events ++ [e]) := by
  obtain ⟨before, a, after, rfl, hact, hall⟩ := h
  refine ⟨before, a, after ++ [e], by rw [append_assoc, cons_append], hact, ?_⟩
  intro mid hmid
  rcases prefix_concat_iff.mp hmid with rfl | hmid
  · rwa [append_assoc, cons_append] at hhold
  · exact hall mid hmid

/-- A property of whole histories that the empty one has and every step extends. -/
theorem history_invariant {inv : List ε → Prop} (hinit : inv [])
    (hstep : ∀ events e, inv events → inv (events ++ [e])) (events : List ε) :
    inv events := by
  induction events using reverseRecOn with
  | nil => exact hinit
  | append_singleton events e ih => exact hstep events e ih

/-- What every round of a loop keeps that can stop is kept by the loop. -/
theorem foldlM_some_invariant {α : Type u} {β : Type v} {f : α → β → Option α} {inv : α → Prop}
    {l : List β} (hstep : ∀ s b s', b ∈ l → inv s → f s b = some s' → inv s') {s s' : α}
    (hinit : inv s) (h : l.foldlM f s = some s') : inv s' := by
  induction l generalizing s with
  | nil =>
    cases h
    exact hinit
  | cons b l ih =>
    rw [foldlM_cons, Option.bind_eq_bind] at h
    cases hb : f s b with
    | none =>
      rw [hb] at h
      cases h
    | some t =>
      rw [hb] at h
      apply ih (fun s b s' hmem => hstep s b s' (mem_cons_of_mem _ hmem)) _ h
      exact hstep s b t mem_cons_self hinit hb

/-- Two loops whose rounds keep a relation, and stop together, end related or stop together. -/
theorem foldlM_simulation {α : Type u} {β : Type v} {γ : Type w} {f : α → β → Option α}
    {g : γ → β → Option γ} {rel : α → γ → Prop}
    (hstep : ∀ s t b, rel s t → Option.Rel rel (f s b) (g t b)) {s : α} {t : γ} (hinit : rel s t)
    (l : List β) : Option.Rel rel (l.foldlM f s) (l.foldlM g t) := by
  induction l generalizing s t with
  | nil => exact Option.Rel.some hinit
  | cons b l ih =>
    rw [foldlM_cons, foldlM_cons, Option.bind_eq_bind, Option.bind_eq_bind]
    have hround := hstep s t b hinit
    generalize f s b = s' at hround ⊢
    generalize g t b = t' at hround ⊢
    cases hround with
    | none => exact Option.Rel.none
    | some hrel => exact ih hrel

/-- A loop that can fail succeeds when its first round does and the rest succeeds from there. -/
theorem foldlM_cons_eq_ok {α : Type u} {β : Type v} {failure : Type w}
    {f : α → β → Except failure α} {s s' : α} {b : β} {l : List β} :
    (b :: l).foldlM f s = .ok s' ↔ ∃ t, f s b = .ok t ∧ l.foldlM f t = .ok s' := by
  rw [foldlM_cons]
  constructor
  · intro h
    cases hb : f s b with
    | error e =>
      rw [hb] at h
      cases h
    | ok t =>
      rw [hb] at h
      exact ⟨t, rfl, h⟩
  · rintro ⟨t, hb, h⟩
    rw [hb]
    exact h

/-- A loop that can fail extends a property of the rounds done so far, when every round does. -/
theorem foldlM_invariant {α : Type u} {β : Type v} {failure : Type w}
    {f : α → β → Except failure α} {inv : List β → α → Prop}
    (hstep : ∀ rounds s b s', inv rounds s → f s b = .ok s' → inv (rounds ++ [b]) s')
    {rounds : List β} {s s' : α} (hinit : inv rounds s) {l : List β}
    (h : l.foldlM f s = .ok s') : inv (rounds ++ l) s' := by
  induction l generalizing rounds s with
  | nil =>
    rw [append_nil]
    cases h
    exact hinit
  | cons b l ih =>
    obtain ⟨t, hb, hrest⟩ := foldlM_cons_eq_ok.mp h
    have hall := ih (hstep rounds s b t hinit hb) hrest
    rwa [append_assoc] at hall

end StateMachine
