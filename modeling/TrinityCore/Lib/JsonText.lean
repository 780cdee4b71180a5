import Mathlib.Data.List.Nodup

/-!
# JSON texts

The grammar of RFC 8259 over bytes: which texts spell which value. What an escaped code unit
stands for, and what a number is converted to, are parameters.
-/

universe u

/-- A value of JSON, with numbers of type `N` and strings of bytes. -/
inductive JsonValue (N : Type u) where
  | null
  | bool (value : Bool)
  | number (value : N)
  | string (text : List UInt8)
  | array (items : List (JsonValue N))
  | object (members : List (List UInt8 × JsonValue N))

namespace JsonValue

variable {N : Type u}

/-! ### How deep values are nested -/

mutual

/-- How many containers the innermost value is inside of. -/
def height : JsonValue N → Nat
  | .array items => heightItems items
  | .object members => heightMembers members
  | _ => 0

def heightItems : List (JsonValue N) → Nat
  | [] => 0
  | item :: items => max (height item + 1) (heightItems items)

def heightMembers : List (List UInt8 × JsonValue N) → Nat
  | [] => 0
  | (_, value) :: members => max (height value + 1) (heightMembers members)

end

mutual

/-- How many containers are nested. -/
def nesting : JsonValue N → Nat
  | .array items => nestingItems items + 1
  | .object members => nestingMembers members + 1
  | _ => 0

def nestingItems : List (JsonValue N) → Nat
  | [] => 0
  | item :: items => max (nesting item) (nestingItems items)

def nestingMembers : List (List UInt8 × JsonValue N) → Nat
  | [] => 0
  | (_, value) :: members => max (nesting value) (nestingMembers members)

end

mutual

/-- A value is inside of no more containers than are nested. -/
theorem height_le_nesting : ∀ value : JsonValue N, height value ≤ nesting value
  | .null => Nat.le_refl _
  | .bool _ => Nat.le_refl _
  | .number _ => Nat.le_refl _
  | .string _ => Nat.le_refl _
  | .array items => heightItems_le_nestingItems items
  | .object members => heightMembers_le_nestingMembers members

theorem heightItems_le_nestingItems :
    ∀ items : List (JsonValue N), heightItems items ≤ nestingItems items + 1
  | [] => Nat.zero_le _
  | item :: items => by
    have hitem := height_le_nesting item
    have hitems := heightItems_le_nestingItems items
    rw [heightItems, nestingItems]
    omega

theorem heightMembers_le_nestingMembers :
    ∀ members : List (List UInt8 × JsonValue N), heightMembers members ≤ nestingMembers members + 1
  | [] => Nat.zero_le _
  | (key, value) :: members => by
    have hvalue := height_le_nesting value
    have hmembers := heightMembers_le_nestingMembers members
    rw [heightMembers, nestingMembers]
    omega

end

/-! ### Keys -/

mutual

/-- No object has two members with one key. -/
def Distinct : JsonValue N → Prop
  | .array items => DistinctItems items
  | .object members => (members.map Prod.fst).Nodup ∧ DistinctMembers members
  | _ => True

def DistinctItems : List (JsonValue N) → Prop
  | [] => True
  | item :: items => Distinct item ∧ DistinctItems items

def DistinctMembers : List (List UInt8 × JsonValue N) → Prop
  | [] => True
  | (_, value) :: members => Distinct value ∧ DistinctMembers members

end

end JsonValue

namespace JsonText

/-! ### Bytes -/

/-- Whitespace. -/
def isBlank (c : UInt8) : Bool := c = 0x20 || c = 0x09 || c = 0x0a || c = 0x0d

/-- Nothing but whitespace. -/
def Blank (s : List UInt8) : Prop := ∀ c ∈ s, isBlank c = true

def isDigit (c : UInt8) : Bool := '0'.toUInt8 ≤ c && c ≤ '9'.toUInt8

/-- The value of a hexadecimal digit. -/
def hexDigit (c : UInt8) : Option Nat :=
  if '0'.toUInt8 ≤ c ∧ c ≤ '9'.toUInt8 then some (c.toNat - '0'.toNat)
  else if 'a'.toUInt8 ≤ c ∧ c ≤ 'f'.toUInt8 then some (c.toNat - 'a'.toNat + 10)
  else if 'A'.toUInt8 ≤ c ∧ c ≤ 'F'.toUInt8 then some (c.toNat - 'A'.toNat + 10)
  else none

def quote : UInt8 := 0x22

def backslash : UInt8 := 0x5c

/-! ### Numbers -/

/-- One digit or more. -/
abbrev Digits := { s : List UInt8 // s ≠ [] ∧ ∀ c ∈ s, isDigit c = true }

/-- `exp`, the sign as whether it is a minus. -/
structure Exponent where
  upper : Bool
  sign : Option Bool
  digits : Digits

/-- `number`. -/
structure Decimal where
  negative : Bool
  whole : Digits
  leading : whole.1.head? = some '0'.toUInt8 → whole.1.length = 1
  fraction : Option Digits
  exponent : Option Exponent

def signOf (negative : Bool) : List UInt8 := if negative then ['-'.toUInt8] else []

def exponentSign : Option Bool → List UInt8
  | none => []
  | some true => ['-'.toUInt8]
  | some false => ['+'.toUInt8]

def Exponent.text (e : Exponent) : List UInt8 :=
  (if e.upper then 'E'.toUInt8 else 'e'.toUInt8) :: (exponentSign e.sign ++ e.digits.1)

def fractionText : Option Digits → List UInt8
  | none => []
  | some digits => '.'.toUInt8 :: digits.1

def exponentText : Option Exponent → List UInt8
  | none => []
  | some e => e.text

namespace Decimal

def text (d : Decimal) : List UInt8 :=
  signOf d.negative ++ (d.whole.1 ++ (fractionText d.fraction ++ exponentText d.exponent))

/-- There is no fraction and no exponent. -/
def integral (d : Decimal) : Bool := d.fraction.isNone && d.exponent.isNone

end Decimal

/-! ### The grammar -/

section

variable {N : Type u} (decode : Nat → Option (List UInt8)) (convert : Decimal → N)

/-- The bytes after a backslash, and what they stand for. -/
def escapes : List (UInt8 × UInt8) :=
  [(quote, quote), (backslash, backslash), ('/'.toUInt8, '/'.toUInt8), ('b'.toUInt8, 0x08),
    ('f'.toUInt8, 0x0c), ('n'.toUInt8, 0x0a), ('r'.toUInt8, 0x0d), ('t'.toUInt8, 0x09)]

/-- An escape behind its backslash, and the bytes that it stands for. -/
inductive SpellsEscape : List UInt8 → List UInt8 → Prop
  | simple {e c : UInt8} (h : (e, c) ∈ escapes) : SpellsEscape [e] [c]
  | unicode {h₁ h₂ h₃ h₄ : UInt8} {d₁ d₂ d₃ d₄ : Nat} {bytes : List UInt8}
      (hd₁ : hexDigit h₁ = some d₁) (hd₂ : hexDigit h₂ = some d₂) (hd₃ : hexDigit h₃ = some d₃)
      (hd₄ : hexDigit h₄ = some d₄)
      (hdecode : decode (((d₁ * 16 + d₂) * 16 + d₃) * 16 + d₄) = some bytes) :
      SpellsEscape ['u'.toUInt8, h₁, h₂, h₃, h₄] bytes

/-- `*char`, and the bytes of the string. -/
inductive SpellsCharacters : List UInt8 → List UInt8 → Prop
  | nil : SpellsCharacters [] []
  | unescaped {c : UInt8} {s text : List UInt8} (hcontrol : 0x20 ≤ c) (hquote : c ≠ quote)
      (hbackslash : c ≠ backslash) (hrest : SpellsCharacters s text) :
      SpellsCharacters (c :: s) (c :: text)
  | escaped {e s bytes text : List UInt8} (hescape : SpellsEscape decode e bytes)
      (hrest : SpellsCharacters s text) :
      SpellsCharacters (backslash :: (e ++ s)) (bytes ++ text)

/-- `string`. -/
def SpellsString (s text : List UInt8) : Prop :=
  ∃ chars, s = quote :: (chars ++ [quote]) ∧ SpellsCharacters decode chars text

def trueText : List UInt8 := ['t'.toUInt8, 'r'.toUInt8, 'u'.toUInt8, 'e'.toUInt8]

def falseText : List UInt8 := ['f'.toUInt8, 'a'.toUInt8, 'l'.toUInt8, 's'.toUInt8, 'e'.toUInt8]

def nullText : List UInt8 := ['n'.toUInt8, 'u'.toUInt8, 'l'.toUInt8, 'l'.toUInt8]

mutual

/-- `value`: the text spells the value. -/
inductive Spells : List UInt8 → JsonValue N → Prop
  | null : Spells nullText .null
  | boolTrue : Spells trueText (.bool true)
  | boolFalse : Spells falseText (.bool false)
  | number (d : Decimal) : Spells d.text (.number (convert d))
  | string {s text : List UInt8} (h : SpellsString decode s text) : Spells s (.string text)
  | emptyArray {w : List UInt8} (hw : Blank w) :
      Spells ('['.toUInt8 :: (w ++ [']'.toUInt8])) (.array [])
  | array {s : List UInt8} {items : List (JsonValue N)} (h : SpellsItems s items) :
      Spells ('['.toUInt8 :: (s ++ [']'.toUInt8])) (.array items)
  | emptyObject {w : List UInt8} (hw : Blank w) :
      Spells ('{'.toUInt8 :: (w ++ ['}'.toUInt8])) (.object [])
  | object {s : List UInt8} {members : List (List UInt8 × JsonValue N)}
      (h : SpellsMembers s members) :
      Spells ('{'.toUInt8 :: (s ++ ['}'.toUInt8])) (.object members)

/-- The items of an array that is not empty. -/
inductive SpellsItems : List UInt8 → List (JsonValue N) → Prop
  | last {w s w' : List UInt8} {item : JsonValue N} (hw : Blank w) (hitem : Spells s item)
      (hw' : Blank w') : SpellsItems (w ++ (s ++ w')) [item]
  | cons {w s w' t : List UInt8} {item : JsonValue N} {items : List (JsonValue N)} (hw : Blank w)
      (hitem : Spells s item) (hw' : Blank w') (hitems : SpellsItems t items) :
      SpellsItems (w ++ (s ++ (w' ++ ','.toUInt8 :: t))) (item :: items)

/-- The members of an object that is not empty. -/
inductive SpellsMembers : List UInt8 → List (List UInt8 × JsonValue N) → Prop
  | last {w k w₁ w₂ s w₃ key : List UInt8} {value : JsonValue N} (hw : Blank w)
      (hkey : SpellsString decode k key) (hw₁ : Blank w₁) (hw₂ : Blank w₂)
      (hvalue : Spells s value) (hw₃ : Blank w₃) :
      SpellsMembers (w ++ (k ++ (w₁ ++ ':'.toUInt8 :: (w₂ ++ (s ++ w₃))))) [(key, value)]
  | cons {w k w₁ w₂ s w₃ t key : List UInt8} {value : JsonValue N}
      {members : List (List UInt8 × JsonValue N)} (hw : Blank w)
      (hkey : SpellsString decode k key) (hw₁ : Blank w₁) (hw₂ : Blank w₂)
      (hvalue : Spells s value) (hw₃ : Blank w₃) (hmembers : SpellsMembers t members) :
      SpellsMembers
        (w ++ (k ++ (w₁ ++ ':'.toUInt8 :: (w₂ ++ (s ++ (w₃ ++ ','.toUInt8 :: t))))))
        ((key, value) :: members)

end

/-- `JSON-text`: a value with whitespace around it. -/
def SpellsText (text : List UInt8) (value : JsonValue N) : Prop :=
  ∃ before s after, text = before ++ (s ++ after) ∧ Blank before ∧ Blank after ∧
    Spells decode convert s value

end

/-! ### How texts begin -/

section

variable {N : Type u} {decode : Nat → Option (List UInt8)} {convert : Decimal → N}

theorem blank_nil : Blank [] := fun _ hc => nomatch hc

theorem Blank.append {s t : List UInt8} (hs : Blank s) (ht : Blank t) : Blank (s ++ t) := by
  intro c hc
  cases List.mem_append.mp hc with
  | inl hmem => exact hs c hmem
  | inr hmem => exact ht c hmem

/-- Whitespace may be put in front of items. -/
theorem SpellsItems.blank_append {w s : List UInt8} {items : List (JsonValue N)} (hw : Blank w)
    (h : SpellsItems decode convert s items) : SpellsItems decode convert (w ++ s) items := by
  cases h with
  | last hw₁ hitem hw₂ =>
    rw [← List.append_assoc]
    exact .last (hw.append hw₁) hitem hw₂
  | cons hw₁ hitem hw₂ hitems =>
    rw [← List.append_assoc]
    exact .cons (hw.append hw₁) hitem hw₂ hitems

/-- Whitespace may be put in front of members. -/
theorem SpellsMembers.blank_append {w s : List UInt8} {members : List (List UInt8 × JsonValue N)}
    (hw : Blank w) (h : SpellsMembers decode convert s members) :
    SpellsMembers decode convert (w ++ s) members := by
  cases h with
  | last hw₁ hkey hw₂ hw₃ hvalue hw₄ =>
    rw [← List.append_assoc]
    exact .last (hw.append hw₁) hkey hw₂ hw₃ hvalue hw₄
  | cons hw₁ hkey hw₂ hw₃ hvalue hw₄ hmembers =>
    rw [← List.append_assoc]
    exact .cons (hw.append hw₁) hkey hw₂ hw₃ hvalue hw₄ hmembers

/-- A number begins with its sign or a digit. -/
theorem Decimal.text_eq_cons (d : Decimal) :
    ∃ c s, d.text = c :: s ∧ (c = '-'.toUInt8 ∨ isDigit c = true) := by
  unfold Decimal.text
  cases d.negative with
  | true => exact ⟨_, _, rfl, .inl rfl⟩
  | false =>
    obtain ⟨c, s, hs⟩ := List.exists_cons_of_ne_nil d.whole.2.1
    refine ⟨c, s ++ (fractionText d.fraction ++ exponentText d.exponent), ?_,
      Or.inr (d.whole.2.2 c (hs ▸ List.mem_cons_self))⟩
    rw [hs]
    rfl

/-- No number begins with a byte that is no digit and no sign. -/
theorem ne_of_number {c e : UInt8} (h : c = '-'.toUInt8 ∨ isDigit c = true)
    (he : isDigit e = false) (hminus : e ≠ '-'.toUInt8) : c ≠ e := by
  rintro rfl
  cases h with
  | inl heq => exact hminus heq
  | inr hdigit => exact Bool.false_ne_true (he.symm.trans hdigit)

/-- A value begins with no whitespace, and not with the end of an array. -/
theorem Spells.text_eq_cons {s : List UInt8} {value : JsonValue N}
    (h : Spells decode convert s value) :
    ∃ c t, s = c :: t ∧ isBlank c = false ∧ c ≠ ']'.toUInt8 := by
  cases h with
  | null => exact ⟨_, _, rfl, by decide, by decide⟩
  | boolTrue => exact ⟨_, _, rfl, by decide, by decide⟩
  | boolFalse => exact ⟨_, _, rfl, by decide, by decide⟩
  | number d =>
    obtain ⟨c, t, ht, hc⟩ := d.text_eq_cons
    refine ⟨c, t, ht, ?_, ne_of_number hc (by decide) (by decide)⟩
    have hspace : c ≠ 0x20 := ne_of_number hc (by decide) (by decide)
    have htab : c ≠ 0x09 := ne_of_number hc (by decide) (by decide)
    have hfeed : c ≠ 0x0a := ne_of_number hc (by decide) (by decide)
    have hreturn : c ≠ 0x0d := ne_of_number hc (by decide) (by decide)
    simp [isBlank, hspace, htab, hfeed, hreturn]
  | string h =>
    obtain ⟨chars, rfl, -⟩ := h
    exact ⟨_, _, rfl, by decide, by decide⟩
  | emptyArray => exact ⟨_, _, rfl, by decide, by decide⟩
  | array => exact ⟨_, _, rfl, by decide, by decide⟩
  | emptyObject => exact ⟨_, _, rfl, by decide, by decide⟩
  | object => exact ⟨_, _, rfl, by decide, by decide⟩

end

end JsonText
