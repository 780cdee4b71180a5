import Mathlib.Algebra.GroupWithZero.Nat
import Mathlib.Algebra.Order.BigOperators.Group.List

/-!
# Self-delimiting codes

A code that can be read back whatever follows it. Texts with a terminator and texts behind
their own length are such codes, and so is everything that is put together from them, one part
after the other.
-/

namespace SelfDelimiting

open List

universe u v w

variable {α : Type u} {σ : Type v} {β γ : Type w}

/-- From the code of a value and anything behind it the view of the value can be read back, and
what is behind it. -/
def Reads (encode : α → List σ) (view : α → β) : Prop :=
  ∀ a b rest rest', encode a ++ rest = encode b ++ rest' → view a = view b ∧ rest = rest'

variable {encode item : α → List σ} {view : α → β}

/-- Equal codes have equal views. -/
theorem Reads.eq (h : Reads encode view) (a b : α) (heq : encode a = encode b) : view a = view b :=
  (h a b [] [] (by rw [heq])).1

/-- A code of a part is a code of the whole that shows the part. -/
theorem Reads.comp (h : Reads encode view) {δ : Type*} (part : δ → α) :
    Reads (fun d => encode (part d)) fun d => view (part d) :=
  fun a b => h (part a) (part b)

/-- What follows from a view can be read back as well. -/
theorem Reads.map (h : Reads encode view) {view' : α → γ}
    (hview : ∀ a b, view a = view b → view' a = view' b) : Reads encode view' := by
  intro a b rest rest' heq
  obtain ⟨hsame, hrest⟩ := h a b rest rest' heq
  exact ⟨hview a b hsame, hrest⟩

/-- One code after the other. -/
theorem Reads.append {encode' : α → List σ} {view' : α → γ} (h : Reads encode view)
    (h' : Reads encode' view') :
    Reads (fun a => encode a ++ encode' a) fun a => (view a, view' a) := by
  intro a b rest rest' heq
  simp only [append_assoc] at heq
  obtain ⟨hview, htail⟩ := h a b _ _ heq
  obtain ⟨hview', hrest⟩ := h' a b _ _ htail
  exact ⟨Prod.ext hview hview', hrest⟩

/-- What is always the same is skipped. -/
theorem Reads.append_const (h : Reads encode view) (mark : List σ) :
    Reads (fun a => encode a ++ mark) view := by
  intro a b rest rest' heq
  simp only [append_assoc] at heq
  obtain ⟨hview, htail⟩ := h a b _ _ heq
  exact ⟨hview, append_cancel_left htail⟩

/-- Texts without the symbol behind them are the same when one does not end before the other. -/
theorem eq_of_append_cons {xs ys rest rest' : List σ} {stop : σ} (hx : stop ∉ xs) (hy : stop ∉ ys)
    (heq : xs ++ stop :: rest = ys ++ stop :: rest') : xs = ys ∧ rest = rest' := by
  rcases append_eq_append_iff.mp heq with ⟨more, rfl, hrest⟩ | ⟨more, rfl, hrest⟩
  · cases more with
    | nil => exact ⟨(append_nil xs).symm, (cons.inj hrest).2⟩
    | cons x more =>
      rw [← (cons.inj hrest).1] at hy
      exact absurd (mem_append_right xs mem_cons_self) hy
  · cases more with
    | nil => exact ⟨append_nil ys, (cons.inj hrest).2.symm⟩
    | cons x more =>
      rw [← (cons.inj hrest).1] at hx
      exact absurd (mem_append_right ys mem_cons_self) hx

/-- A text that ends where a symbol stands that it does not contain. -/
theorem reads_terminated (hinj : Function.Injective encode) {stop : σ}
    (hstop : ∀ a, stop ∉ encode a) : Reads (fun a => encode a ++ [stop]) id := by
  intro a b rest rest' heq
  simp only [append_assoc, singleton_append] at heq
  obtain ⟨hcode, hrest⟩ := eq_of_append_cons (hstop a) (hstop b) heq
  exact ⟨hinj hcode, hrest⟩

/-- A text behind its own size, when every symbol counts. -/
theorem reads_sized {encode : ℕ → List σ} (h : Reads encode id) {weight : σ → ℕ}
    (hweight : ∀ s, 0 < weight s) :
    Reads (fun xs : List σ => encode (xs.map weight).sum ++ xs) id := by
  have hnil (xs : List σ) (hzero : (xs.map weight).sum = 0) : xs = [] := by
    cases xs with
    | nil => rfl
    | cons x xs =>
      have hpos := hweight x
      rw [map_cons, sum_cons] at hzero
      omega
  intro xs ys rest rest' heq
  simp only [append_assoc] at heq
  obtain ⟨hsize, htail⟩ := h _ _ _ _ heq
  simp only [id] at hsize
  -- one of the texts continues the other, by nothing because the sizes agree
  rcases append_eq_append_iff.mp htail with ⟨more, rfl, hrest⟩ | ⟨more, rfl, hrest⟩
  · rw [map_append, sum_append] at hsize
    obtain rfl := hnil more (by omega)
    exact ⟨(append_nil xs).symm, hrest⟩
  · rw [map_append, sum_append] at hsize
    obtain rfl := hnil more (by omega)
    exact ⟨append_nil ys, hrest.symm⟩

/-- Codes of the items of a list behind their number. -/
theorem reads_counted {encode : ℕ → List σ} (h : Reads encode id) (hitem : Reads item view) :
    Reads (fun xs : List α => encode xs.length ++ xs.flatMap item) (List.map view) := by
  have hitems (xs : List α) (ys : List α) (hlength : xs.length = ys.length) (rest rest' : List σ)
      (heq : xs.flatMap item ++ rest = ys.flatMap item ++ rest') :
      xs.map view = ys.map view ∧ rest = rest' := by
    induction xs generalizing ys with
    | nil =>
      rw [length_nil] at hlength
      obtain rfl := length_eq_zero_iff.mp hlength.symm
      exact ⟨rfl, heq⟩
    | cons x xs ih =>
      cases ys with
      | nil => nomatch hlength
      | cons y ys =>
        simp only [flatMap_cons, append_assoc] at heq
        obtain ⟨hhead, htail⟩ := hitem x y _ _ heq
        obtain ⟨hrest, hend⟩ := ih ys (Nat.succ.inj hlength) htail
        exact ⟨by rw [map_cons, map_cons, hhead, hrest], hend⟩
  intro xs ys rest rest' heq
  simp only [append_assoc] at heq
  obtain ⟨hlength, htail⟩ := h _ _ _ _ heq
  exact hitems xs ys hlength rest rest' htail

/-- Codes of any number of items in front of a tail that does not begin like one. -/
theorem Reads.flatMap (h : Reads item view) (xs ys : List α) {tail tail' : List σ}
    (htail : ∀ a rest, item a ++ rest ≠ tail) (htail' : ∀ a rest, item a ++ rest ≠ tail')
    (heq : xs.flatMap item ++ tail = ys.flatMap item ++ tail') :
    xs.map view = ys.map view ∧ tail = tail' := by
  induction xs generalizing ys with
  | nil =>
    cases ys with
    | nil => exact ⟨rfl, heq⟩
    | cons y ys =>
      rw [flatMap_cons, append_assoc] at heq
      exact absurd heq.symm (htail y _)
  | cons x xs ih =>
    cases ys with
    | nil =>
      rw [flatMap_cons, append_assoc] at heq
      exact absurd heq (htail' x _)
    | cons y ys =>
      simp only [flatMap_cons, append_assoc] at heq
      obtain ⟨hhead, hrest⟩ := h x y _ _ heq
      obtain ⟨hitems, hend⟩ := ih ys hrest
      exact ⟨by rw [map_cons, map_cons, hhead, hitems], hend⟩

/-! ### Decimal numbers -/

/-- Different numbers have different digits. -/
theorem toDigits_injective : Function.Injective (Nat.toDigits 10) := by
  intro n m h
  rw [← Nat.ofDigitChars_ten_toDigits (n := n), h, Nat.ofDigitChars_ten_toDigits]

theorem not_mem_toDigits {c : Char} (hc : c.isDigit = false) (n : ℕ) : c ∉ Nat.toDigits 10 n := by
  intro hmem
  have hdigit : c.isDigit = true := Nat.isDigit_of_mem_toDigits (by decide) (by decide) hmem
  rw [hc] at hdigit
  nomatch hdigit

/-- A decimal number in front of a symbol that is no digit. -/
theorem reads_decimal {stop : Char} (hstop : stop.isDigit = false) :
    Reads (fun n => Nat.toDigits 10 n ++ [stop]) id :=
  reads_terminated toDigits_injective (not_mem_toDigits hstop)

end SelfDelimiting
