import TrinityCore.Lib.JsonText

/-!
# Writing JSON texts

Arrays and objects without whitespace, from the texts of their parts. A scan that follows the
quotes of a text tells which texts are none of JSON: those with a control character in a string.
-/

universe u

namespace JsonText

open List

/-! ### Arrays and objects -/

/-- Texts with a comma between two of them. -/
def commaSeparated (texts : List (List UInt8)) : List UInt8 := [','.toUInt8].intercalate texts

/-- An array of the items. -/
def arrayText (items : List (List UInt8)) : List UInt8 :=
  '['.toUInt8 :: (commaSeparated items ++ [']'.toUInt8])

/-- A member of an object, whose key is written as it is. -/
def memberText (key text : List UInt8) : List UInt8 :=
  quote :: (key ++ quote :: ':'.toUInt8 :: text)

/-- An object of the members. -/
def objectText (members : List (List UInt8 × List UInt8)) : List UInt8 :=
  '{'.toUInt8 :: (commaSeparated (members.map fun member => memberText member.1 member.2) ++
    ['}'.toUInt8])

@[simp] theorem commaSeparated_nil : commaSeparated [] = [] := rfl

@[simp] theorem commaSeparated_singleton (text : List UInt8) :
    commaSeparated [text] = text := by
  simp [commaSeparated, intercalate]

@[simp] theorem commaSeparated_cons_cons (text next : List UInt8) (texts : List (List UInt8)) :
    commaSeparated (text :: next :: texts) =
      text ++ ','.toUInt8 :: commaSeparated (next :: texts) := by
  simp [commaSeparated, intercalate]

variable {s a b text key : List UInt8} {texts items : List (List UInt8)}
  {members : List (List UInt8 × List UInt8)}

section

variable {N : Type u} {decode : Nat → Option (List UInt8)} {convert : Decimal → N}

/-- Bytes that stand for themselves in a string. -/
def Plain (s : List UInt8) : Prop := ∀ c ∈ s, 0x20 ≤ c ∧ c ≠ quote ∧ c ≠ backslash

instance (s : List UInt8) : Decidable (Plain s) :=
  decidableBAll (fun c => 0x20 ≤ c ∧ c ≠ quote ∧ c ≠ backslash) s

theorem spellsCharacters_of_plain (h : Plain s) : SpellsCharacters decode s s := by
  induction s with
  | nil => exact .nil
  | cons c s ih =>
    obtain ⟨⟨hcontrol, hquote, hbackslash⟩, hs⟩ := forall_mem_cons.mp h
    exact .unescaped hcontrol hquote hbackslash (ih hs)

/-- Items that are not empty, each with its value. -/
theorem spellsItems_commaSeparated {α : Type*} (text : α → List UInt8) (value : α → JsonValue N)
    (items : List α) (hne : items ≠ [])
    (hitems : ∀ item ∈ items, Spells decode convert (text item) (value item)) :
    SpellsItems decode convert (commaSeparated (items.map text)) (items.map value) := by
  induction items with
  | nil => exact absurd rfl hne
  | cons item items ih =>
    obtain ⟨hitem, hrest⟩ := forall_mem_cons.mp hitems
    cases items with
    | nil => simpa using SpellsItems.last blank_nil hitem blank_nil
    | cons next items =>
      have htail := ih (by simp) hrest
      simpa using SpellsItems.cons blank_nil hitem blank_nil htail

/-- An array is spelled by the texts of its items. -/
theorem spells_arrayText {α : Type*} (text : α → List UInt8) (value : α → JsonValue N)
    (items : List α) (hitems : ∀ item ∈ items, Spells decode convert (text item) (value item)) :
    Spells decode convert (arrayText (items.map text)) (.array (items.map value)) := by
  by_cases hne : items = []
  · subst hne
    exact .emptyArray blank_nil
  · exact .array (spellsItems_commaSeparated text value items hne hitems)

/-- Members that are not empty, each with its key and value. -/
theorem spellsMembers_commaSeparated {α : Type*} (key text : α → List UInt8)
    (value : α → JsonValue N) (members : List α) (hne : members ≠ [])
    (hkeys : ∀ member ∈ members, Plain (key member))
    (hmembers : ∀ member ∈ members, Spells decode convert (text member) (value member)) :
    SpellsMembers decode convert
      (commaSeparated (members.map fun member => memberText (key member) (text member)))
      (members.map fun member => (key member, value member)) := by
  have hspelled (member) (hmem : member ∈ members) :
      SpellsString decode (quote :: (key member ++ [quote])) (key member) :=
    ⟨_, rfl, spellsCharacters_of_plain (hkeys member hmem)⟩
  induction members with
  | nil => exact absurd rfl hne
  | cons member members ih =>
    obtain ⟨hmember, hrest⟩ := forall_mem_cons.mp hmembers
    obtain ⟨hkey, hkeys⟩ := forall_mem_cons.mp hkeys
    have hstring := hspelled member mem_cons_self
    cases members with
    | nil =>
      simpa [memberText] using
        SpellsMembers.last blank_nil hstring blank_nil blank_nil hmember blank_nil
    | cons next members =>
      have htail := ih (by simp) hkeys hrest fun member hmem =>
        hspelled member (mem_cons_of_mem _ hmem)
      simpa [memberText] using
        SpellsMembers.cons blank_nil hstring blank_nil blank_nil hmember blank_nil htail

/-- An object is spelled by the texts of its members. -/
theorem spells_objectText (members : List (List UInt8 × List UInt8 × JsonValue N))
    (hkeys : ∀ member ∈ members, Plain member.1)
    (hmembers : ∀ member ∈ members, Spells decode convert member.2.1 member.2.2) :
    Spells decode convert (objectText (members.map fun member => (member.1, member.2.1)))
      (.object (members.map fun member => (member.1, member.2.2))) := by
  by_cases hne : members = []
  · subst hne
    exact .emptyObject blank_nil
  · have htext := spellsMembers_commaSeparated Prod.fst (fun member => member.2.1)
      (fun member => member.2.2) members hne hkeys hmembers
    rw [objectText, map_map]
    exact .object htext

end

/-! ### Following the quotes of a text -/

/-- Where a scan stands: between strings, in one, or behind a backslash. -/
inductive Scan where
  | outside
  | inside
  | escaped
  deriving DecidableEq, Repr

/-- One byte; no string goes on past a control character. -/
def Scan.next : Scan → UInt8 → Option Scan
  | .outside, c => some (if c = quote then .inside else .outside)
  | .inside, c =>
    if c = quote then some .outside
    else if c = backslash then some .escaped
    else if c < 0x20 then none
    else some .inside
  | .escaped, _ => some .inside

/-- The scan over a text. -/
def scan (s : Scan) (text : List UInt8) : Option Scan := text.foldlM Scan.next s

/-- The strings of the text are closed and without control characters. -/
def Scans (text : List UInt8) : Prop := scan .outside text = some .outside

instance (text : List UInt8) : Decidable (Scans text) :=
  inferInstanceAs (Decidable (scan .outside text = some .outside))

/-- The text either scans or goes wrong inside of itself. -/
def Decided (text : List UInt8) : Prop := Scans text ∨ scan .outside text = none

@[simp] theorem scan_nil (s : Scan) : scan s [] = some s := rfl

@[simp] theorem scan_cons (s : Scan) (c : UInt8) (text : List UInt8) :
    scan s (c :: text) = (s.next c).bind fun s => scan s text := by
  rw [scan, foldlM_cons]
  rfl

theorem scan_append (s : Scan) (a b : List UInt8) :
    scan s (a ++ b) = (scan s a).bind fun s => scan s b := by
  rw [scan, foldlM_append]
  rfl

theorem scans_nil : Scans [] := rfl

theorem Scans.append (ha : Scans a) (hb : Scans b) : Scans (a ++ b) := by
  rw [Scans, scan_append, ha]
  exact hb

theorem Scans.cons {c : UInt8} (hc : c ≠ quote) (h : Scans text) : Scans (c :: text) := by
  simpa [Scans, Scan.next, hc] using h

/-- Without quotes there is nothing to follow. -/
theorem scans_of_quote_not_mem (h : quote ∉ text) : Scans text := by
  induction text with
  | nil => exact scans_nil
  | cons c text ih =>
    rw [mem_cons, not_or] at h
    exact (ih h.2).cons (Ne.symm h.1)

theorem quote_not_mem_of_blank (h : Blank s) : quote ∉ s := by
  intro hmem
  exact absurd (h quote hmem) (by decide)

theorem Blank.scans (h : Blank s) : Scans s := scans_of_quote_not_mem (quote_not_mem_of_blank h)

theorem quote_not_mem_digits (h : ∀ c ∈ s, isDigit c = true) : quote ∉ s := by
  intro hmem
  exact absurd (h quote hmem) (by decide)

theorem Decimal.scans_text (d : Decimal) : Scans d.text := by
  apply scans_of_quote_not_mem
  have hsign : quote ∉ signOf d.negative := by
    cases d.negative <;> decide
  have hfraction : quote ∉ fractionText d.fraction := by
    cases d.fraction with
    | none => simp [fractionText]
    | some digits =>
      rw [fractionText, mem_cons, not_or]
      exact ⟨by decide, quote_not_mem_digits digits.2.2⟩
  have hexponent : quote ∉ exponentText d.exponent := by
    cases d.exponent with
    | none => simp [exponentText]
    | some e =>
      have hletter : quote ≠ if e.upper then 'E'.toUInt8 else 'e'.toUInt8 := by
        cases e.upper <;> decide
      have hexponentSign : quote ∉ exponentSign e.sign := by
        cases e.sign with
        | none => decide
        | some minus => cases minus <;> decide
      rw [exponentText, Exponent.text, mem_cons, mem_append, not_or, not_or]
      exact ⟨hletter, hexponentSign, quote_not_mem_digits e.digits.2.2⟩
  rw [Decimal.text, mem_append, mem_append, mem_append, not_or, not_or, not_or]
  exact ⟨hsign, quote_not_mem_digits d.whole.2.2, hfraction, hexponent⟩

section

variable {N : Type u} {decode : Nat → Option (List UInt8)} {convert : Decimal → N}

/-- The hexadecimal digits of an escape are no control characters. -/
theorem scan_hexDigit {h : UInt8} {d : Nat} (hd : hexDigit h = some d) :
    Scan.next .inside h = some .inside := by
  have hne (c : UInt8) (hc : hexDigit c = none) : h ≠ c := by
    rintro rfl
    simp [hc] at hd
  have hcontrol : ¬ h < 0x20 := by
    intro hlt
    rw [UInt8.lt_iff_toNat_lt] at hlt
    have hnone : ∀ c : Fin 32, hexDigit (UInt8.ofNat c) = none := by decide
    have hval := hnone ⟨h.toNat, hlt⟩
    rw [UInt8.ofNat_toNat] at hval
    simp [hval] at hd
  simp [Scan.next, hne quote (by decide), hne backslash (by decide), hcontrol]

/-- The characters of a string stay in it. -/
theorem SpellsCharacters.scan (h : SpellsCharacters decode s text) :
    scan .inside s = some .inside := by
  induction h with
  | nil => rfl
  | unescaped hcontrol hquote hbackslash _ ih =>
    simp [Scan.next, hquote, hbackslash, UInt8.not_lt.mpr hcontrol, ih]
  | escaped hescape _ ih =>
    cases hescape with
    | simple => simpa [Scan.next, backslash, quote] using ih
    | unicode hd₁ hd₂ hd₃ hd₄ =>
      have hbackslash : Scan.next .inside backslash = some .escaped := by decide
      have hletter : Scan.next .escaped 'u'.toUInt8 = some .inside := by decide
      simpa [hbackslash, hletter, scan_hexDigit hd₁, scan_hexDigit hd₂, scan_hexDigit hd₃,
        scan_hexDigit hd₄] using ih

theorem SpellsString.scans (h : SpellsString decode s text) : Scans s := by
  obtain ⟨chars, rfl, hchars⟩ := h
  simp [Scans, Scan.next, scan_append, hchars.scan]

mutual

/-- Every value scans. -/
theorem Spells.scans {s : List UInt8} {value : JsonValue N} (h : Spells decode convert s value) :
    Scans s := by
  cases h with
  | null => decide
  | boolTrue => decide
  | boolFalse => decide
  | number d => exact d.scans_text
  | string h => exact h.scans
  | emptyArray hw => exact ((Blank.scans hw).append (by decide)).cons (by decide)
  | array h => exact (h.scans.append (by decide)).cons (by decide)
  | emptyObject hw => exact ((Blank.scans hw).append (by decide)).cons (by decide)
  | object h => exact (h.scans.append (by decide)).cons (by decide)

theorem SpellsItems.scans {s : List UInt8} {items : List (JsonValue N)}
    (h : SpellsItems decode convert s items) : Scans s := by
  cases h with
  | last hw hitem hw' => exact hw.scans.append (hitem.scans.append hw'.scans)
  | cons hw hitem hw' hitems =>
    exact hw.scans.append
      (hitem.scans.append (hw'.scans.append (hitems.scans.cons (by decide))))

theorem SpellsMembers.scans {s : List UInt8} {members : List (List UInt8 × JsonValue N)}
    (h : SpellsMembers decode convert s members) : Scans s := by
  cases h with
  | last hw hkey hw₁ hw₂ hvalue hw₃ =>
    exact hw.scans.append (hkey.scans.append
      (hw₁.scans.append ((hw₂.scans.append (hvalue.scans.append hw₃.scans)).cons (by decide))))
  | cons hw hkey hw₁ hw₂ hvalue hw₃ hmembers =>
    exact hw.scans.append (hkey.scans.append (hw₁.scans.append ((hw₂.scans.append
      (hvalue.scans.append (hw₃.scans.append (hmembers.scans.cons (by decide))))).cons
        (by decide))))

end

/-- Every JSON text scans. -/
theorem SpellsText.scans {value : JsonValue N} (h : SpellsText decode convert text value) :
    Scans text := by
  obtain ⟨before, s, after, rfl, hbefore, hafter, hs⟩ := h
  exact hbefore.scans.append (hs.scans.append hafter.scans)

end

/-! ### What a written text scans on -/

theorem Scans.decided (h : Scans text) : Decided text := .inl h

theorem scans_append_iff (ha : Decided a) : Scans (a ++ b) ↔ Scans a ∧ Scans b := by
  constructor
  · intro h
    rcases ha with hscans | hnone
    · refine ⟨hscans, ?_⟩
      rwa [Scans, scan_append, hscans] at h
    · simp [Scans, scan_append, hnone] at h
  · exact fun h => h.1.append h.2

theorem Decided.append (ha : Decided a) (hb : Decided b) : Decided (a ++ b) := by
  rcases ha with hscans | hnone
  · rwa [Decided, Scans, scan_append, hscans]
  · right
    simp [scan_append, hnone]

theorem scans_cons_iff {c : UInt8} (hc : c ≠ quote) : Scans (c :: text) ↔ Scans text := by
  simp [Scans, Scan.next, hc]

theorem Decided.cons {c : UInt8} (hc : c ≠ quote) (h : Decided text) : Decided (c :: text) := by
  simpa [Decided, Scans, Scan.next, hc] using h

/-- Texts with commas between them go wrong inside of themselves only. -/
theorem decided_commaSeparated (h : ∀ text ∈ texts, Decided text) :
    Decided (commaSeparated texts) := by
  induction texts with
  | nil => exact scans_nil.decided
  | cons text texts ih =>
    obtain ⟨htext, hrest⟩ := forall_mem_cons.mp h
    cases texts with
    | nil => simpa using htext
    | cons next texts =>
      rw [commaSeparated_cons_cons]
      exact htext.append ((ih hrest).cons (by decide))

theorem scans_commaSeparated_iff (h : ∀ text ∈ texts, Decided text) :
    Scans (commaSeparated texts) ↔ ∀ text ∈ texts, Scans text := by
  induction texts with
  | nil => simp [scans_nil]
  | cons text texts ih =>
    obtain ⟨htext, hrest⟩ := forall_mem_cons.mp h
    cases texts with
    | nil => simp
    | cons next texts =>
      rw [commaSeparated_cons_cons, scans_append_iff htext, scans_cons_iff (by decide), ih hrest,
        forall_mem_cons (a := text)]

/-- An array scans when its items do. -/
theorem decided_arrayText (h : ∀ item ∈ items, Decided item) : Decided (arrayText items) :=
  ((decided_commaSeparated h).append (.inl (by decide))).cons (by decide)

theorem scans_arrayText_iff (h : ∀ item ∈ items, Decided item) :
    Scans (arrayText items) ↔ ∀ item ∈ items, Scans item := by
  have hclose : Scans [']'.toUInt8] := by decide
  rw [arrayText, scans_cons_iff (by decide), scans_append_iff (decided_commaSeparated h),
    scans_commaSeparated_iff h]
  simp [hclose]

/-- A plain key is passed over. -/
theorem scan_plain (h : Plain key) : scan .inside key = some .inside := by
  have hkey : SpellsCharacters (fun _ => none) key key := spellsCharacters_of_plain h
  exact hkey.scan

theorem scan_memberText (hkey : Plain key) (text : List UInt8) :
    scan .outside (memberText key text) = scan .outside text := by
  simp only [memberText, scan_cons, Scan.next, ↓reduceIte, Option.bind_some, scan_append,
    scan_plain hkey]
  rfl

section

variable (hkeys : ∀ member ∈ members, Plain member.1)
include hkeys

section

variable (h : ∀ member ∈ members, Decided member.2)
include h

theorem decided_memberText :
    ∀ text ∈ members.map fun member => memberText member.1 member.2, Decided text := by
  intro text htext
  obtain ⟨member, hmem, rfl⟩ := mem_map.mp htext
  rw [Decided, Scans, scan_memberText (hkeys member hmem)]
  exact h member hmem

/-- An object with plain keys scans when its values do. -/
theorem decided_objectText : Decided (objectText members) := by
  exact ((decided_commaSeparated (decided_memberText hkeys h)).append (.inl (by decide))).cons
    (by decide)

theorem scans_objectText_iff : Scans (objectText members) ↔ ∀ member ∈ members, Scans member.2 := by
  have hclose : Scans ['}'.toUInt8] := by decide
  have hdecided := decided_memberText hkeys h
  rw [objectText, scans_cons_iff (by decide), scans_append_iff (decided_commaSeparated hdecided),
    scans_commaSeparated_iff hdecided, forall_mem_map, and_iff_left hclose]
  apply forall₂_congr
  intro member hmem
  rw [Scans, scan_memberText (hkeys member hmem), Scans]

end

end

end JsonText
