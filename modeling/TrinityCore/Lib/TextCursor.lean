import Mathlib.Data.List.TakeWhile

/-!
# Readers with a cursor

A reader of a text gives what it has read and where its cursor is then. The rules say what it has
read in terms of the part of the text that it went over: `Reads` for all that it may give, `Gives`
for what it does give.
-/

universe u v w

variable {α : Type u} {β γ : Type v} {ε : Type w}

/-- The cursor stands before `rest`. -/
structure CursorAt (text : List α) (pos : Nat) (rest : List α) : Prop where
  le : pos ≤ text.length
  drop : text.drop pos = rest

namespace CursorAt

open List

variable {text s rest rest' : List α} {pos pos' : Nat} {c : α}

theorem start (text : List α) : CursorAt text 0 text := ⟨Nat.zero_le _, rfl⟩

theorem length (h : CursorAt text pos rest) : pos + rest.length = text.length := by
  have hlength := congrArg List.length h.drop
  rw [List.length_drop] at hlength
  have hle := h.le
  omega

theorem getElem? (h : CursorAt text pos rest) : text[pos]? = rest.head? := by
  rw [← h.drop, head?_drop]

theorem length_le_iff (h : CursorAt text pos rest) : text.length ≤ pos ↔ rest = [] := by
  rw [← length_eq_zero_iff]
  have hlength := h.length
  omega

theorem advance (h : CursorAt text pos (s ++ rest)) : CursorAt text (pos + s.length) rest := by
  have hlength := h.length
  rw [length_append] at hlength
  refine ⟨by omega, ?_⟩
  rw [← drop_drop, h.drop, drop_left]

theorem tail (h : CursorAt text pos (c :: rest)) : CursorAt text (pos + 1) rest :=
  @advance _ text [c] rest pos h

theorem takeWhile (h : CursorAt text pos rest) (p : α → Bool) :
    CursorAt text (pos + ((text.drop pos).takeWhile p).length) (rest.dropWhile p) := by
  rw [h.drop]
  apply advance
  rw [takeWhile_append_dropWhile]
  exact h

/-- What lies between two places of the cursor. -/
theorem take_eq (h : CursorAt text pos (s ++ rest)) (h' : CursorAt text pos' rest) :
    (text.drop pos).take (pos' - pos) = s := by
  have hlength := h.length
  have hlength' := h'.length
  rw [length_append] at hlength
  have hcount : pos' - pos = s.length := by omega
  rw [h.drop, hcount, take_left]

end CursorAt

/-- A reader goes over a part of what is before its cursor, which with what it gives is as `post`
says, or refuses the text. -/
def Reads (refusal : ε → Prop) (text rest : List α) (post : List α → β → Prop) :
    Except ε (β × Nat) → Prop
  | .ok (b, pos) => ∃ s rest', rest = s ++ rest' ∧ CursorAt text pos rest' ∧ post s b
  | .error e => refusal e

/-- A reader gives a value, with its cursor before `rest`. -/
def Gives (text rest : List α) (b : β) (result : Except ε (β × Nat)) : Prop :=
  ∃ pos, result = .ok (b, pos) ∧ CursorAt text pos rest

variable {refusal : ε → Prop} {text rest rest' : List α} {post post' : List α → β → Prop}
  {result : Except ε (β × Nat)} {pos : Nat}

theorem Reads.ok {s : List α} {b : β} (hrest : rest = s ++ rest') (hpos : CursorAt text pos rest')
    (hpost : post s b) : Reads refusal text rest post (.ok (b, pos)) :=
  ⟨s, rest', hrest, hpos, hpost⟩

theorem Reads.imp (h : Reads refusal text rest post result)
    (himp : ∀ s b, post s b → post' s b) : Reads refusal text rest post' result := by
  cases result with
  | error e => exact h
  | ok value =>
    obtain ⟨s, rest', hrest, hpos, hpost⟩ := h
    exact ⟨s, rest', hrest, hpos, himp s _ hpost⟩

/-- A reader that goes on behind a part of the text. -/
theorem Reads.behind {s : List α} (h : Reads refusal text rest' (fun t => post (s ++ t)) result)
    (hrest : rest = s ++ rest') : Reads refusal text rest post result := by
  cases result with
  | error e => exact h
  | ok value =>
    obtain ⟨t, rest'', hrest', hpos, hpost⟩ := h
    exact ⟨s ++ t, rest'', by rw [hrest, hrest', List.append_assoc], hpos, hpost⟩

theorem Reads.bind {post : List α → γ → Prop} {f : β × Nat → Except ε (γ × Nat)}
    {first : List α → β → Prop} (h : Reads refusal text rest first result)
    (hf : ∀ s b pos rest', rest = s ++ rest' → CursorAt text pos rest' → first s b →
      Reads refusal text rest' (fun t => post (s ++ t)) (f (b, pos))) :
    Reads refusal text rest post (result >>= f) := by
  cases result with
  | error e => exact h
  | ok value =>
    obtain ⟨s, rest', hrest, hpos, hfirst⟩ := h
    exact (hf s value.1 value.2 rest' hrest hpos hfirst).behind hrest

theorem Gives.ok {b : β} (h : CursorAt text pos rest) :
    Gives text rest b (.ok (b, pos) : Except ε (β × Nat)) := ⟨pos, rfl, h⟩

theorem Gives.bind {f : β × Nat → Except ε (γ × Nat)} {b : β} {c : γ}
    (h : Gives text rest b result)
    (hf : ∀ pos, CursorAt text pos rest → Gives text rest' c (f (b, pos))) :
    Gives text rest' c (result >>= f) := by
  obtain ⟨pos, rfl, hpos⟩ := h
  exact hf pos hpos
