import TrinityCore.Bots.RouteNativeJsonTokens

/-!
# The values of the JSON reader

The reader accepts the JSON texts whose values are in no more than 32 containers and have no
object with two members of one key, and gives the value that the text spells.
-/

namespace TrinityCore.Bots.RouteNativeJson

open List Option

open JsonText JsonValue

variable {D : Type} {strtod : List UInt8 → D} {toDouble : Decimal → D} {text rest : List UInt8}
  {pos fuel depth : Nat}

/-- The text spells the value for this reader. -/
abbrev SpellsValue (toDouble : Decimal → D) : List UInt8 → Value D → Prop :=
  Spells plainAscii (numberOf toDouble)

/-! ### Values by their first byte -/

/-- `ParseValue` from the first byte on. -/
def parseByte (strtod : List UInt8 → D) (text : List UInt8) (fuel pos depth : Nat) (c : UInt8) :
    Except Stop (Value D × Nat) :=
  if c = '{'.toUInt8 then
    match consume text '}'.toUInt8 (skipWhitespace text (pos + 1)) with
    | some pos => .ok (.object [], pos)
    | none => parseMembers strtod text fuel (skipWhitespace text (pos + 1)) depth []
  else if c = '['.toUInt8 then
    match consume text ']'.toUInt8 (skipWhitespace text (pos + 1)) with
    | some pos => .ok (.array [], pos)
    | none => parseItems strtod text fuel (skipWhitespace text (pos + 1)) depth []
  else if c = quote then parseString text fuel pos >>= fun read => .ok (.string read.1, read.2)
  else if c = 't'.toUInt8 ∨ c = 'f'.toUInt8 then
    match parseLiteral text (if decide (c = 't'.toUInt8) then trueText else falseText) pos with
    | some pos => .ok (.bool (decide (c = 't'.toUInt8)), pos)
    | none => .error (.fail .literalInvalid)
  else if c = 'n'.toUInt8 then
    match parseLiteral text nullText pos with
    | some pos => .ok (.null, pos)
    | none => .error (.fail .literalInvalid)
  else parseNumber strtod text pos

variable {c : UInt8} {s w key t w' : List UInt8} {value item : Value D} {items : List (Value D)}
  {members : List (List UInt8 × Value D)}

theorem parseValue_cons (hdepth : depth ≤ maxDepth)
    (h : CursorAt text (skipWhitespace text pos) (c :: rest)) :
    parseValue strtod text (fuel + 1) pos depth =
      parseByte strtod text fuel (skipWhitespace text pos) depth c := by
  have hmore : ¬text.length ≤ skipWhitespace text pos := by
    rw [h.length_le_iff]
    exact cons_ne_nil _ _
  rw [parseValue, if_neg (Nat.not_lt.mpr hdepth)]
  dsimp only
  rw [if_neg hmore, byteAt_cursor h]
  rfl

theorem parseValue_nil (hdepth : depth ≤ maxDepth) (h : CursorAt text (skipWhitespace text pos) []) :
    parseValue strtod text (fuel + 1) pos depth = .error (.fail .truncated) := by
  rw [parseValue, if_neg (Nat.not_lt.mpr hdepth)]
  dsimp only
  rw [if_pos (h.length_le_iff.mpr rfl)]

theorem parseMembers_eq (members : List (List UInt8 × Value D)) :
    parseMembers strtod text (fuel + 1) pos depth members =
      parseString text fuel (skipWhitespace text pos) >>= fun read =>
        if read.1 ∈ members.map Prod.fst then .error (.fail .duplicateKey)
        else
          match consume text ':'.toUInt8 (skipWhitespace text read.2) with
          | none => .error (.fail .colonExpected)
          | some pos => parseValue strtod text fuel pos (depth + 1) >>= fun member =>
            match consume text '}'.toUInt8 (skipWhitespace text member.2) with
            | some pos => .ok (.object (members ++ [(read.1, member.1)]), pos)
            | none =>
              match consume text ','.toUInt8 (skipWhitespace text member.2) with
              | none => .error (.fail .objectSeparatorExpected)
              | some pos =>
                parseMembers strtod text fuel pos depth (members ++ [(read.1, member.1)]) := by
  rewrite [parseMembers]
  rfl

theorem parseItems_eq (items : List (Value D)) :
    parseItems strtod text (fuel + 1) pos depth items =
      parseValue strtod text fuel pos (depth + 1) >>= fun item =>
        match consume text ']'.toUInt8 (skipWhitespace text item.2) with
        | some pos => .ok (.array (items ++ [item.1]), pos)
        | none =>
          match consume text ','.toUInt8 (skipWhitespace text item.2) with
          | none => .error (.fail .arraySeparatorExpected)
          | some pos => parseItems strtod text fuel pos depth (items ++ [item.1]) := by
  rewrite [parseItems]
  rfl

/-- A literal that is read, or is not there. -/
theorem parseLiteral_cases (h : CursorAt text pos rest) (literal : List UInt8) :
    parseLiteral text literal pos = none ∨ ∃ rest', rest = literal ++ rest' ∧
      parseLiteral text literal pos = some (pos + literal.length) ∧
        CursorAt text (pos + literal.length) rest' := by
  unfold parseLiteral
  rw [h.drop]
  split
  · next htake =>
    have hrest : rest = literal ++ rest.drop literal.length := by
      conv_lhs => rw [← take_append_drop literal.length rest, htake]
    refine .inr ⟨rest.drop literal.length, hrest, rfl, ?_⟩
    apply CursorAt.advance
    rw [← hrest]
    exact h
  · exact .inl rfl

theorem parseLiteral_append {literal : List UInt8} (h : CursorAt text pos (literal ++ rest)) :
    parseLiteral text literal pos = some (pos + literal.length) := by
  unfold parseLiteral
  rw [h.drop, take_left, if_pos rfl]

theorem skip_cases (h : CursorAt text pos rest) :
    ∃ w rest', rest = w ++ rest' ∧ Blank w ∧ CursorAt text (skipWhitespace text pos) rest' :=
  ⟨rest.takeWhile isBlank, rest.dropWhile isBlank, takeWhile_append_dropWhile.symm,
    blank_takeWhile rest, skipWhitespace_cursor h⟩

/-! ### What the reader accepts -/

/-- A value at some depth, with whitespace before it. -/
structure AcceptsValue (toDouble : Decimal → D) (depth : Nat) (s : List UInt8) (value : Value D) :
    Prop where
  spells : ∃ w t, s = w ++ t ∧ Blank w ∧ SpellsValue toDouble t value
  height : value.height + depth ≤ maxDepth
  distinct : value.Distinct

/-- The further members of an object at some depth, to its end. -/
structure AcceptsMembers (toDouble : Decimal → D) (depth : Nat)
    (members new : List (List UInt8 × Value D)) (t : List UInt8) : Prop where
  spells : SpellsMembers plainAscii (numberOf toDouble) t new
  height : heightMembers new + depth ≤ maxDepth
  distinct : DistinctMembers new
  keys : (members.map Prod.fst).Nodup → ((members ++ new).map Prod.fst).Nodup

/-- The further items of an array at some depth, to its end. -/
structure AcceptsItems (toDouble : Decimal → D) (depth : Nat) (new : List (Value D))
    (t : List UInt8) : Prop where
  spells : SpellsItems plainAscii (numberOf toDouble) t new
  height : heightItems new + depth ≤ maxDepth
  distinct : DistinctItems new

/-- With so many rounds the reader accepts values only. -/
def ReadsValues (strtod : List UInt8 → D) (toDouble : Decimal → D) (text : List UInt8)
    (fuel : Nat) : Prop :=
  ∀ pos depth rest, CursorAt text pos rest → 2 * rest.length + 1 ≤ fuel →
    Reads Refusal text rest (AcceptsValue toDouble depth) (parseValue strtod text fuel pos depth)

def ReadsMembers (strtod : List UInt8 → D) (toDouble : Decimal → D) (text : List UInt8)
    (fuel : Nat) : Prop :=
  ∀ pos depth members rest, CursorAt text pos rest → 2 * rest.length + 2 ≤ fuel →
    Reads Refusal text rest
      (fun s value => ∃ t new, s = t ++ ['}'.toUInt8] ∧ value = .object (members ++ new) ∧
        AcceptsMembers toDouble depth members new t)
      (parseMembers strtod text fuel pos depth members)

def ReadsItems (strtod : List UInt8 → D) (toDouble : Decimal → D) (text : List UInt8)
    (fuel : Nat) : Prop :=
  ∀ pos depth items rest, CursorAt text pos rest → 2 * rest.length + 2 ≤ fuel →
    Reads Refusal text rest
      (fun s value => ∃ t new, s = t ++ [']'.toUInt8] ∧ value = .array (items ++ new) ∧
        AcceptsItems toDouble depth new t)
      (parseItems strtod text fuel pos depth items)

theorem readsItems_succ (hvalues : ReadsValues strtod toDouble text fuel)
    (hitems : ReadsItems strtod toDouble text fuel) :
    ReadsItems strtod toDouble text (fuel + 1) := by
  intro pos depth items rest h hfuel
  rw [parseItems_eq]
  refine (hvalues pos (depth + 1) rest h (by omega)).bind ?_
  rintro s item pos₁ rest₁ rfl hpos₁ ⟨⟨w, t, rfl, hw, hspells⟩, hheight, hdistinct⟩
  obtain ⟨w₁, rest₂, rfl, hw₁, hpos₂⟩ := skip_cases hpos₁
  dsimp only
  obtain ⟨-, hclose⟩ | ⟨rest₃, rfl, hclose, hpos₃⟩ := consume_cases hpos₂ ']'.toUInt8
  · rw [hclose]
    obtain ⟨-, hcomma⟩ | ⟨rest₃, rfl, hcomma, hpos₃⟩ := consume_cases hpos₂ ','.toUInt8
    · rw [hcomma]
      exact refuses _
    · rw [hcomma]
      refine Reads.behind (s := w₁ ++ [','.toUInt8]) ?_ (append_cons w₁ _ rest₃)
      simp only [length_append, length_cons] at hfuel
      refine (hitems _ depth (items ++ [item]) rest₃ hpos₃ (by omega)).imp ?_
      rintro s value ⟨t', new, rfl, rfl, haccepts⟩
      refine ⟨w ++ (t ++ (w₁ ++ ','.toUInt8 :: t')), item :: new, by simp, by simp, ?_, ?_, ?_⟩
      · exact .cons hw hspells hw₁ haccepts.spells
      · have hrest := haccepts.height
        rw [heightItems]
        omega
      · exact ⟨hdistinct, haccepts.distinct⟩
  · rw [hclose]
    refine Reads.ok (s := w₁ ++ [']'.toUInt8]) (by simp) hpos₃
      ⟨w ++ (t ++ w₁), [item], by simp, rfl, .last hw hspells hw₁, ?_, hdistinct, trivial⟩
    rw [heightItems, heightItems]
    omega

theorem readsMembers_succ (hvalues : ReadsValues strtod toDouble text fuel)
    (hmembers : ReadsMembers strtod toDouble text fuel) :
    ReadsMembers strtod toDouble text (fuel + 1) := by
  intro pos depth members rest h hfuel
  rw [parseMembers_eq]
  obtain ⟨w, rest₁, rfl, hw, hpos₁⟩ := skip_cases h
  rw [length_append] at hfuel
  refine Reads.behind (s := w) ?_ rfl
  refine (reads_parseString hpos₁ (by omega)).bind ?_
  rintro k key pos₂ rest₂ rfl hpos₂ hkey
  dsimp only
  split
  · exact refuses _
  · next hnew =>
    obtain ⟨w₁, rest₃, rfl, hw₁, hpos₃⟩ := skip_cases hpos₂
    obtain ⟨-, hcolon⟩ | ⟨rest₄, rfl, hcolon, hpos₄⟩ := consume_cases hpos₃ ':'.toUInt8
    · rw [hcolon]
      exact refuses _
    · rw [hcolon]
      simp only [length_append, length_cons] at hfuel
      refine Reads.behind (s := w₁ ++ [':'.toUInt8]) ?_ (append_cons w₁ _ rest₄)
      refine (hvalues _ (depth + 1) rest₄ hpos₄ (by omega)).bind ?_
      rintro s value pos₅ rest₅ rfl hpos₅ ⟨⟨w₂, t, rfl, hw₂, hspells⟩, hheight, hdistinct⟩
      obtain ⟨w₃, rest₆, rfl, hw₃, hpos₆⟩ := skip_cases hpos₅
      dsimp only
      obtain ⟨-, hclose⟩ | ⟨rest₇, rfl, hclose, hpos₇⟩ := consume_cases hpos₆ '}'.toUInt8
      · rw [hclose]
        obtain ⟨-, hcomma⟩ | ⟨rest₇, rfl, hcomma, hpos₇⟩ := consume_cases hpos₆ ','.toUInt8
        · rw [hcomma]
          exact refuses _
        · rw [hcomma]
          refine Reads.behind (s := w₃ ++ [','.toUInt8]) ?_ (append_cons w₃ _ rest₇)
          simp only [length_append, length_cons] at hfuel
          refine (hmembers _ depth (members ++ [(key, value)]) rest₇ hpos₇ (by omega)).imp ?_
          rintro s object ⟨t', new, rfl, rfl, haccepts⟩
          refine ⟨w ++ (k ++ (w₁ ++ ':'.toUInt8 :: (w₂ ++ (t ++ (w₃ ++ ','.toUInt8 :: t'))))),
            (key, value) :: new, by simp, by simp, ?_, ?_, ?_, ?_⟩
          · exact .cons hw hkey hw₁ hw₂ hspells hw₃ haccepts.spells
          · have hrest := haccepts.height
            rw [heightMembers]
            omega
          · exact ⟨hdistinct, haccepts.distinct⟩
          · intro hnodup
            have hkeys := haccepts.keys
            rw [append_assoc] at hkeys
            apply hkeys
            rw [map_append]
            exact hnodup.append (nodup_singleton key) (by simpa using hnew)
      · rw [hclose]
        refine Reads.ok (s := w₃ ++ ['}'.toUInt8]) (by simp) hpos₇
          ⟨w ++ (k ++ (w₁ ++ ':'.toUInt8 :: (w₂ ++ (t ++ w₃)))), [(key, value)], by simp, rfl,
            .last hw hkey hw₁ hw₂ hspells hw₃, ?_, ⟨hdistinct, trivial⟩, ?_⟩
        · rw [heightMembers, heightMembers]
          omega
        · intro hnodup
          rw [map_append]
          exact hnodup.append (nodup_singleton key) (by simpa using hnew)

/-- A value that begins with its text. -/
theorem acceptsValue (hspells : SpellsValue toDouble s value)
    (hheight : value.height + depth ≤ maxDepth) (hdistinct : value.Distinct) :
    AcceptsValue toDouble depth s value :=
  ⟨⟨[], s, rfl, blank_nil, hspells⟩, hheight, hdistinct⟩

theorem reads_object (hdepth : depth ≤ maxDepth) (hmembers : ReadsMembers strtod toDouble text fuel)
    (h : CursorAt text pos ('{'.toUInt8 :: rest)) (hfuel : 2 * rest.length + 2 ≤ fuel) :
    Reads Refusal text ('{'.toUInt8 :: rest) (AcceptsValue toDouble depth)
      (parseByte strtod text fuel pos depth '{'.toUInt8) := by
  obtain ⟨w, rest₁, rfl, hw, hpos₁⟩ := skip_cases h.tail
  rw [parseByte, if_pos rfl]
  obtain ⟨-, hclose⟩ | ⟨rest₂, rfl, hclose, hpos₂⟩ := consume_cases hpos₁ '}'.toUInt8
  · rw [hclose]
    rw [length_append] at hfuel
    refine Reads.behind (s := '{'.toUInt8 :: w) ?_ rfl
    refine (hmembers _ depth [] rest₁ hpos₁ (by omega)).imp ?_
    rintro s value ⟨t, new, rfl, rfl, haccepts⟩
    have hspells := Spells.object (haccepts.spells.blank_append hw)
    rw [append_assoc] at hspells
    exact acceptsValue hspells haccepts.height ⟨haccepts.keys nodup_nil, haccepts.distinct⟩
  · rw [hclose]
    refine Reads.ok (s := '{'.toUInt8 :: (w ++ ['}'.toUInt8])) (by simp) hpos₂
      (acceptsValue (.emptyObject hw) ?_ ⟨nodup_nil, trivial⟩)
    rw [height, heightMembers]
    omega

theorem reads_array (hdepth : depth ≤ maxDepth) (hitems : ReadsItems strtod toDouble text fuel)
    (h : CursorAt text pos ('['.toUInt8 :: rest)) (hfuel : 2 * rest.length + 2 ≤ fuel) :
    Reads Refusal text ('['.toUInt8 :: rest) (AcceptsValue toDouble depth)
      (parseByte strtod text fuel pos depth '['.toUInt8) := by
  obtain ⟨w, rest₁, rfl, hw, hpos₁⟩ := skip_cases h.tail
  rw [parseByte, if_neg (by decide), if_pos rfl]
  obtain ⟨-, hclose⟩ | ⟨rest₂, rfl, hclose, hpos₂⟩ := consume_cases hpos₁ ']'.toUInt8
  · rw [hclose]
    rw [length_append] at hfuel
    refine Reads.behind (s := '['.toUInt8 :: w) ?_ rfl
    refine (hitems _ depth [] rest₁ hpos₁ (by omega)).imp ?_
    rintro s value ⟨t, new, rfl, rfl, haccepts⟩
    have hspells := Spells.array (haccepts.spells.blank_append hw)
    rw [append_assoc] at hspells
    exact acceptsValue hspells haccepts.height haccepts.distinct
  · rw [hclose]
    refine Reads.ok (s := '['.toUInt8 :: (w ++ [']'.toUInt8])) (by simp) hpos₂
      (acceptsValue (.emptyArray hw) ?_ trivial)
    rw [height, heightItems]
    omega

section

variable (hstrtod : ∀ d : Decimal, strtod d.text = toDouble d)
include hstrtod

theorem reads_parseByte
    (hdepth : depth ≤ maxDepth) (hmembers : ReadsMembers strtod toDouble text fuel)
    (hitems : ReadsItems strtod toDouble text fuel) (h : CursorAt text pos (c :: rest))
    (hfuel : 2 * rest.length + 2 ≤ fuel) :
    Reads Refusal text (c :: rest) (AcceptsValue toDouble depth)
      (parseByte strtod text fuel pos depth c) := by
  have hscalar : height (N := Number D) .null + depth ≤ maxDepth := by
    rw [height]
    · omega
    all_goals exact nofun
  by_cases hobject : c = '{'.toUInt8
  · subst hobject
    exact reads_object hdepth hmembers h hfuel
  by_cases harray : c = '['.toUInt8
  · subst harray
    exact reads_array hdepth hitems h hfuel
  rw [parseByte, if_neg hobject, if_neg harray]
  split
  · refine (reads_parseString h (by rw [length_cons]; omega)).bind ?_
    rintro s out pos' rest' hrest hpos' hspells
    refine Reads.ok (s := []) rfl hpos' ?_
    rw [append_nil]
    exact acceptsValue (.string hspells) hscalar trivial
  · split
    · next hbool =>
      obtain hnone | ⟨rest', hrest, hsome, hpos'⟩ :=
        parseLiteral_cases h (if decide (c = 't'.toUInt8) then trueText else falseText)
      · rw [hnone]
        exact refuses _
      · rw [hsome]
        refine Reads.ok hrest hpos' (acceptsValue ?_ hscalar trivial)
        cases hc : decide (c = 't'.toUInt8) with
        | true => exact .boolTrue
        | false => exact .boolFalse
    · split
      · obtain hnone | ⟨rest', hrest, hsome, hpos'⟩ := parseLiteral_cases h nullText
        · rw [hnone]
          exact refuses _
        · rw [hsome]
          exact Reads.ok hrest hpos' (acceptsValue .null hscalar trivial)
      · refine (reads_parseNumber hstrtod h).imp ?_
        rintro s value ⟨d, rfl, rfl⟩
        exact acceptsValue (.number d) hscalar trivial

theorem readsValues_succ (hmembers : ReadsMembers strtod toDouble text fuel)
    (hitems : ReadsItems strtod toDouble text fuel) :
    ReadsValues strtod toDouble text (fuel + 1) := by
  intro pos depth rest h hfuel
  by_cases hdepth : depth ≤ maxDepth
  · obtain ⟨w, rest₁, rfl, hw, hpos₁⟩ := skip_cases h
    cases rest₁ with
    | nil =>
      rw [parseValue_nil hdepth hpos₁]
      exact refuses _
    | cons c rest₁ =>
      rw [parseValue_cons hdepth hpos₁]
      rw [length_append, length_cons] at hfuel
      refine Reads.behind (s := w) ?_ rfl
      refine (reads_parseByte hstrtod hdepth hmembers hitems hpos₁ (by omega)).imp ?_
      rintro s value ⟨⟨w', t, rfl, hw', hspells⟩, hheight, hdistinct⟩
      exact ⟨⟨w ++ w', t, (append_assoc w w' t).symm, hw.append hw', hspells⟩, hheight, hdistinct⟩
  · rw [parseValue, if_pos (Nat.not_le.mp hdepth)]
    exact refuses _

/-- By induction on the rounds. -/
theorem reads_all (fuel : Nat) :
    ReadsValues strtod toDouble text fuel ∧ ReadsMembers strtod toDouble text fuel ∧
      ReadsItems strtod toDouble text fuel := by
  induction fuel with
  | zero =>
    refine ⟨?_, ?_, ?_⟩
    · exact fun pos depth rest _ hfuel => absurd hfuel (by omega)
    · exact fun pos depth members rest _ hfuel => absurd hfuel (by omega)
    · exact fun pos depth items rest _ hfuel => absurd hfuel (by omega)
  | succ fuel ih =>
    obtain ⟨hvalues, hmembers, hitems⟩ := ih
    exact ⟨readsValues_succ hstrtod hmembers hitems, readsMembers_succ hvalues hmembers,
      readsItems_succ hvalues hitems⟩

end

/-! ### What the grammar derives -/

theorem stops_nil : Stops [] := ⟨nofun, nofun, nofun, nofun⟩

theorem stops_cons {c : UInt8} (s : List UInt8) (hdigit : isDigit c = false)
    (hpoint : c ≠ '.'.toUInt8) (hlower : c ≠ 'e'.toUInt8) (hupper : c ≠ 'E'.toUInt8) :
    Stops (c :: s) where
  noDigit _ hd := some.inj hd ▸ hdigit
  noPoint heq := hpoint (some.inj heq)
  noLower heq := hlower (some.inj heq)
  noUpper heq := hupper (some.inj heq)

theorem stops_blank_append (hw : Blank w) (hs : Stops s) : Stops (w ++ s) := by
  cases w with
  | nil => exact hs
  | cons c w =>
    have hc := hw c mem_cons_self
    simp only [isBlank, Bool.or_eq_true, decide_eq_true_eq] at hc
    rcases hc with ((rfl | rfl) | rfl) | rfl
    all_goals exact stops_cons _ (by decide) (by decide) (by decide) (by decide)

theorem solid_cons (s : List UInt8) (hc : isBlank c = false) : Solid (c :: s) :=
  fun _ hd => some.inj hd ▸ hc

/-- The text with or without the whitespace in front of it. -/
def MaybeSkipped (s rest : List UInt8) : Prop := rest = s ∨ rest = s.dropWhile isBlank

theorem MaybeSkipped.exists_blank (h : MaybeSkipped (w ++ s) rest) (hw : Blank w) (hs : Solid s) :
    ∃ w', rest = w' ++ s ∧ Blank w' ∧ w'.length ≤ w.length := by
  cases h with
  | inl heq => exact ⟨w, heq, hw, Nat.le_refl _⟩
  | inr heq =>
    rw [dropWhile_blank hw hs] at heq
    exact ⟨[], heq, blank_nil, Nat.zero_le _⟩

theorem solid_spells (h : SpellsValue toDouble s value) (rest : List UInt8) :
    Solid (s ++ rest) := by
  obtain ⟨c, t, rfl, hblank, -⟩ := h.text_eq_cons
  exact solid_cons _ hblank

theorem solid_spellsString (h : SpellsString plainAscii s key) (rest : List UInt8) :
    Solid (s ++ rest) := by
  obtain ⟨chars, rfl, -⟩ := h
  exact solid_cons _ (by decide)

/-- An array with items does not end at once. -/
theorem head?_items (h : SpellsItems plainAscii (numberOf toDouble) s items) (rest : List UInt8) :
    ((s ++ rest).dropWhile isBlank).head? ≠ some ']'.toUInt8 := by
  cases h with
  | last hw hitem hw' =>
    rw [append_assoc, append_assoc, dropWhile_blank hw (solid_spells hitem _)]
    obtain ⟨c, t, rfl, -, hc⟩ := hitem.text_eq_cons
    exact fun heq => hc (some.inj heq)
  | cons hw hitem hw' hitems =>
    rw [append_assoc, append_assoc, dropWhile_blank hw (solid_spells hitem _)]
    obtain ⟨c, t, rfl, -, hc⟩ := hitem.text_eq_cons
    exact fun heq => hc (some.inj heq)

/-- An object with members does not end at once. -/
theorem head?_members (h : SpellsMembers plainAscii (numberOf toDouble) s members)
    (rest : List UInt8) : ((s ++ rest).dropWhile isBlank).head? ≠ some '}'.toUInt8 := by
  cases h with
  | last hw hkey hw₁ hw₂ hvalue hw₃ =>
    rw [append_assoc, append_assoc, dropWhile_blank hw (solid_spellsString hkey _)]
    obtain ⟨chars, rfl, -⟩ := hkey
    exact fun heq => absurd (some.inj heq) (by decide)
  | cons hw hkey hw₁ hw₂ hvalue hw₃ hmembers =>
    rw [append_assoc, append_assoc, dropWhile_blank hw (solid_spellsString hkey _)]
    obtain ⟨chars, rfl, -⟩ := hkey
    exact fun heq => absurd (some.inj heq) (by decide)

/-- A value whose first byte gives it. -/
theorem gives_of_parseByte
    (h : CursorAt text pos (w ++ (t ++ rest))) (hw : Blank w) (ht : SpellsValue toDouble t value)
    (hdepth : depth ≤ maxDepth)
    (hbyte : ∀ pos c t', t = c :: t' → CursorAt text pos (c :: (t' ++ rest)) →
      Gives text rest value (parseByte strtod text fuel pos depth c)) :
    Gives text rest value (parseValue strtod text (fuel + 1) pos depth) := by
  obtain ⟨c, t', rfl, hblank, -⟩ := ht.text_eq_cons
  have hpos := skipWhitespace_blank h hw (solid_cons (t' ++ rest) hblank)
  rw [parseValue_cons hdepth hpos]
  exact hbyte _ c t' rfl hpos

theorem gives_number (hstrtod : ∀ d : Decimal, strtod d.text = toDouble d) (d : Decimal)
    (ht : d.text = c :: t) (h : CursorAt text pos (c :: (t ++ rest))) (hstops : Stops rest) :
    Gives text rest (.number (numberOf toDouble d))
      (parseByte strtod text fuel pos depth c) := by
  obtain ⟨e, t', ht', he⟩ := d.text_eq_cons
  have hc : c = '-'.toUInt8 ∨ isDigit c = true := by
    rw [ht] at ht'
    rw [(cons.inj ht').1]
    exact he
  have hobject : c ≠ '{'.toUInt8 := ne_of_number hc (by decide) (by decide)
  have harray : c ≠ '['.toUInt8 := ne_of_number hc (by decide) (by decide)
  have hquote : c ≠ quote := ne_of_number hc (by decide) (by decide)
  have htrue : c ≠ 't'.toUInt8 := ne_of_number hc (by decide) (by decide)
  have hfalse : c ≠ 'f'.toUInt8 := ne_of_number hc (by decide) (by decide)
  have hnull : c ≠ 'n'.toUInt8 := ne_of_number hc (by decide) (by decide)
  rw [parseByte, if_neg hobject, if_neg harray, if_neg hquote, if_neg (not_or.mpr ⟨htrue, hfalse⟩),
    if_neg hnull]
  apply gives_parseNumber hstrtod _ hstops
  rw [ht]
  exact h

theorem gives_string {bytes : List UInt8} (hs : SpellsString plainAscii s bytes) (ht : s = c :: t)
    (h : CursorAt text pos (c :: (t ++ rest))) (hfuel : s.length ≤ fuel) :
    Gives text rest (.string bytes) (parseByte strtod text fuel pos depth c) := by
  have hgives : Gives text rest bytes (parseString text fuel pos) :=
    gives_parseString hs (by rw [ht]; exact h) hfuel
  have hc : c = quote := by
    obtain ⟨chars, hchars, -⟩ := hs
    rw [ht] at hchars
    exact (cons.inj hchars).1
  subst hc
  rw [parseByte, if_neg (by decide), if_neg (by decide), if_pos rfl]
  exact hgives.bind fun _ hpos => Gives.ok hpos

theorem gives_null (h : CursorAt text pos (nullText ++ rest)) :
    Gives text rest .null (parseByte strtod text fuel pos depth 'n'.toUInt8) := by
  rw [parseByte, if_neg (by decide), if_neg (by decide), if_neg (by decide), if_neg (by decide),
    if_pos rfl, parseLiteral_append h]
  exact Gives.ok h.advance

theorem gives_true (h : CursorAt text pos (trueText ++ rest)) :
    Gives text rest (.bool true) (parseByte strtod text fuel pos depth 't'.toUInt8) := by
  have hliteral : parseLiteral text
      (if decide ('t'.toUInt8 = 't'.toUInt8) then trueText else falseText) pos =
        some (pos + trueText.length) := parseLiteral_append h
  rw [parseByte, if_neg (by decide), if_neg (by decide), if_neg (by decide), if_pos (by decide),
    hliteral]
  exact Gives.ok h.advance

theorem gives_false (h : CursorAt text pos (falseText ++ rest)) :
    Gives text rest (.bool false) (parseByte strtod text fuel pos depth 'f'.toUInt8) := by
  have hliteral : parseLiteral text
      (if decide ('f'.toUInt8 = 't'.toUInt8) then trueText else falseText) pos =
        some (pos + falseText.length) := parseLiteral_append h
  rw [parseByte, if_neg (by decide), if_neg (by decide), if_neg (by decide), if_pos (by decide),
    hliteral]
  exact Gives.ok h.advance

/-- An array with nothing in it. -/
theorem gives_emptyArray (hw : Blank w)
    (h : CursorAt text pos ('['.toUInt8 :: (w ++ ']'.toUInt8 :: rest))) :
    Gives text rest (.array []) (parseByte strtod text fuel pos depth '['.toUInt8) := by
  have hpos := skipWhitespace_blank h.tail hw (solid_cons rest (by decide))
  rw [parseByte, if_neg (by decide), if_pos rfl, consume_cons hpos]
  exact Gives.ok hpos.tail

theorem gives_emptyObject (hw : Blank w)
    (h : CursorAt text pos ('{'.toUInt8 :: (w ++ '}'.toUInt8 :: rest))) :
    Gives text rest (.object []) (parseByte strtod text fuel pos depth '{'.toUInt8) := by
  have hpos := skipWhitespace_blank h.tail hw (solid_cons rest (by decide))
  rw [parseByte, if_pos rfl, consume_cons hpos]
  exact Gives.ok hpos.tail

/-- An array goes on with its items, the whitespace before the first skipped. -/
theorem gives_array
    (hs : SpellsItems plainAscii (numberOf toDouble) s items)
    (h : CursorAt text pos ('['.toUInt8 :: (s ++ ']'.toUInt8 :: rest)))
    (hitems : ∀ pos r, CursorAt text pos r → MaybeSkipped (s ++ ']'.toUInt8 :: rest) r →
      Gives text rest (.array items) (parseItems strtod text fuel pos depth [])) :
    Gives text rest (.array items) (parseByte strtod text fuel pos depth '['.toUInt8) := by
  have hpos := skipWhitespace_cursor h.tail
  rw [parseByte, if_neg (by decide), if_pos rfl, consume_of_head?_ne hpos (head?_items hs _)]
  exact hitems _ _ hpos (.inr rfl)

theorem gives_object
    (hs : SpellsMembers plainAscii (numberOf toDouble) s members)
    (h : CursorAt text pos ('{'.toUInt8 :: (s ++ '}'.toUInt8 :: rest)))
    (hmembers : ∀ pos r, CursorAt text pos r → MaybeSkipped (s ++ '}'.toUInt8 :: rest) r →
      Gives text rest (.object members) (parseMembers strtod text fuel pos depth [])) :
    Gives text rest (.object members) (parseByte strtod text fuel pos depth '{'.toUInt8) := by
  have hpos := skipWhitespace_cursor h.tail
  rw [parseByte, if_pos rfl, consume_of_head?_ne hpos (head?_members hs _)]
  exact hmembers _ _ hpos (.inr rfl)

/-- An item that is the last of its array. -/
theorem gives_lastItem (hw' : Blank w')
    (hitem : Gives text (w' ++ ']'.toUInt8 :: rest) item
      (parseValue strtod text fuel pos (depth + 1))) :
    Gives text rest (.array (items ++ [item]))
      (parseItems strtod text (fuel + 1) pos depth items) := by
  rw [parseItems_eq]
  refine hitem.bind fun pos hpos => ?_
  have hskip := skipWhitespace_blank hpos hw' (solid_cons rest (by decide))
  dsimp only
  rw [consume_cons hskip]
  exact Gives.ok hskip.tail

/-- An item with more of them behind it. -/
theorem gives_nextItem {array : Value D}
    (hw' : Blank w') (hitem : Gives text (w' ++ ','.toUInt8 :: t) item
      (parseValue strtod text fuel pos (depth + 1)))
    (hrest : ∀ pos, CursorAt text pos t →
      Gives text rest array (parseItems strtod text fuel pos depth (items ++ [item]))) :
    Gives text rest array (parseItems strtod text (fuel + 1) pos depth items) := by
  rw [parseItems_eq]
  refine hitem.bind fun pos hpos => ?_
  have hskip := skipWhitespace_blank hpos hw' (solid_cons t (by decide))
  have hcomma : (','.toUInt8 :: t).head? ≠ some ']'.toUInt8 :=
    fun heq => absurd (some.inj heq) (by decide)
  dsimp only
  rw [consume_of_head?_ne hskip hcomma, consume_cons hskip]
  exact hrest _ hskip.tail

theorem notMem_of_nodup {new : List (List UInt8 × Value D)}
    (h : ((members ++ (key, value) :: new).map Prod.fst).Nodup) : key ∉ members.map Prod.fst := by
  rw [map_append] at h
  exact fun hmem => (nodup_append.mp h).2.2 key hmem key mem_cons_self rfl

/-- The key of a member, its colon, and its value. -/
theorem gives_member {k w₁ w₂ : List UInt8} {object : Value D} (hw : Blank w)
    (hkey : SpellsString plainAscii k key)
    (hw₁ : Blank w₁) (hnew : key ∉ members.map Prod.fst) (hfuel : k.length ≤ fuel)
    (h : CursorAt text pos (w ++ (k ++ (w₁ ++ ':'.toUInt8 :: (w₂ ++ s)))))
    (hvalue : ∀ pos, CursorAt text pos (w₂ ++ s) →
      Gives text rest object (parseValue strtod text fuel pos (depth + 1) >>= fun member =>
        match consume text '}'.toUInt8 (skipWhitespace text member.2) with
        | some pos => .ok (.object (members ++ [(key, member.1)]), pos)
        | none =>
          match consume text ','.toUInt8 (skipWhitespace text member.2) with
          | none => .error (.fail .objectSeparatorExpected)
          | some pos =>
            parseMembers strtod text fuel pos depth (members ++ [(key, member.1)]))) :
    Gives text rest object (parseMembers strtod text (fuel + 1) pos depth members) := by
  have hskip := skipWhitespace_blank h hw (solid_spellsString hkey _)
  rw [parseMembers_eq]
  refine (gives_parseString hkey hskip hfuel).bind fun pos₁ hpos₁ => ?_
  have hcolon := skipWhitespace_blank hpos₁ hw₁ (solid_cons (w₂ ++ s) (by decide))
  dsimp only
  rw [if_neg hnew, consume_cons hcolon]
  exact hvalue _ hcolon.tail

mutual

/-- What the grammar derives is given, by the derivation. -/
theorem gives_value (hstrtod : ∀ d : Decimal, strtod d.text = toDouble d) {t : List UInt8}
    {value : Value D} (hspells : SpellsValue toDouble t value) {w rest : List UInt8}
    {pos fuel depth : Nat} (h : CursorAt text pos (w ++ (t ++ rest))) (hw : Blank w)
    (hstops : Stops rest) (hheight : value.height + depth ≤ maxDepth) (hdistinct : value.Distinct)
    (hfuel : 2 * (w ++ (t ++ rest)).length + 1 ≤ fuel) :
    Gives text rest value (parseValue strtod text fuel pos depth) := by
  obtain ⟨fuel, rfl⟩ := Nat.exists_eq_add_one_of_ne_zero (n := fuel) (by omega)
  apply gives_of_parseByte h hw hspells (by omega)
  intro pos c t' ht hpos
  simp only [length_append] at hfuel
  match hspells with
  | .null =>
    obtain ⟨rfl, rfl⟩ := cons.inj ht
    exact gives_null hpos
  | .boolTrue =>
    obtain ⟨rfl, rfl⟩ := cons.inj ht
    exact gives_true hpos
  | .boolFalse =>
    obtain ⟨rfl, rfl⟩ := cons.inj ht
    exact gives_false hpos
  | .number d => exact gives_number hstrtod d ht hpos hstops
  | .string hstring => exact gives_string hstring ht hpos (by omega)
  | .emptyArray hblank =>
    obtain ⟨rfl, rfl⟩ := cons.inj ht
    rw [append_assoc] at hpos
    exact gives_emptyArray hblank hpos
  | .array (s := s) hitems =>
    obtain ⟨rfl, rfl⟩ := cons.inj ht
    rw [append_assoc] at hpos
    rw [length_cons, length_append, length_singleton] at hfuel
    apply gives_array hitems hpos
    intro pos r hr hskipped
    have hrest : 2 * (s ++ ']'.toUInt8 :: rest).length + 2 ≤ fuel := by
      rw [length_append, length_cons]
      omega
    exact gives_items hstrtod hitems [] hr hskipped hheight hdistinct hrest
  | .emptyObject hblank =>
    obtain ⟨rfl, rfl⟩ := cons.inj ht
    rw [append_assoc] at hpos
    exact gives_emptyObject hblank hpos
  | .object (s := s) hmembers =>
    obtain ⟨rfl, rfl⟩ := cons.inj ht
    rw [append_assoc] at hpos
    rw [length_cons, length_append, length_singleton] at hfuel
    apply gives_object hmembers hpos
    intro pos r hr hskipped
    have hrest : 2 * (s ++ '}'.toUInt8 :: rest).length + 2 ≤ fuel := by
      rw [length_append, length_cons]
      omega
    exact gives_members hstrtod hmembers [] hr hskipped hheight hdistinct.2 hdistinct.1 hrest

theorem gives_items (hstrtod : ∀ d : Decimal, strtod d.text = toDouble d) {s : List UInt8}
    {new : List (Value D)} (hspells : SpellsItems plainAscii (numberOf toDouble) s new)
    (items : List (Value D)) {r rest : List UInt8} {pos fuel depth : Nat}
    (h : CursorAt text pos r) (hskipped : MaybeSkipped (s ++ ']'.toUInt8 :: rest) r)
    (hheight : heightItems new + depth ≤ maxDepth) (hdistinct : DistinctItems new)
    (hfuel : 2 * (s ++ ']'.toUInt8 :: rest).length + 2 ≤ fuel) :
    Gives text rest (.array (items ++ new)) (parseItems strtod text fuel pos depth items) := by
  obtain ⟨fuel, rfl⟩ := Nat.exists_eq_add_one_of_ne_zero (n := fuel) (by omega)
  match hspells with
  | @SpellsItems.last _ _ _ w s w' item hw hitem hw' =>
    rw [heightItems, heightItems] at hheight
    rw [append_assoc, append_assoc] at hskipped
    obtain ⟨w₀, rfl, hw₀, hlength⟩ := hskipped.exists_blank hw (solid_spells hitem _)
    simp only [length_append, length_cons] at hfuel
    apply gives_lastItem hw'
    apply gives_value hstrtod hitem h hw₀ _ (by omega) hdistinct.1
    · simp only [length_append, length_cons]
      omega
    · exact stops_blank_append hw' (stops_cons _ (by decide) (by decide) (by decide) (by decide))
  | @SpellsItems.cons _ _ _ w s w' t item items' hw hitem hw' hitems =>
    rw [heightItems] at hheight
    rw [append_assoc, append_assoc, append_assoc] at hskipped
    obtain ⟨w₀, rfl, hw₀, hlength⟩ := hskipped.exists_blank hw (solid_spells hitem _)
    simp only [length_append, length_cons] at hfuel
    apply gives_nextItem (t := t ++ ']'.toUInt8 :: rest) hw'
    · apply gives_value hstrtod hitem h hw₀ _ (by omega) hdistinct.1
      · simp only [length_append, length_cons]
        omega
      · exact stops_blank_append hw' (stops_cons _ (by decide) (by decide) (by decide) (by decide))
    · intro pos hpos
      have hrest : 2 * (t ++ ']'.toUInt8 :: rest).length + 2 ≤ fuel := by
        rw [length_append, length_cons]
        omega
      have hheight' : heightItems items' + depth ≤ maxDepth := by omega
      have hgives := gives_items hstrtod hitems (items ++ [item]) hpos (.inl rfl) hheight'
        hdistinct.2 hrest
      rwa [append_assoc] at hgives

theorem gives_members (hstrtod : ∀ d : Decimal, strtod d.text = toDouble d) {s : List UInt8}
    {new : List (List UInt8 × Value D)}
    (hspells : SpellsMembers plainAscii (numberOf toDouble) s new)
    (members : List (List UInt8 × Value D)) {r rest : List UInt8} {pos fuel depth : Nat}
    (h : CursorAt text pos r) (hskipped : MaybeSkipped (s ++ '}'.toUInt8 :: rest) r)
    (hheight : heightMembers new + depth ≤ maxDepth) (hdistinct : DistinctMembers new)
    (hkeys : ((members ++ new).map Prod.fst).Nodup)
    (hfuel : 2 * (s ++ '}'.toUInt8 :: rest).length + 2 ≤ fuel) :
    Gives text rest (.object (members ++ new))
      (parseMembers strtod text fuel pos depth members) := by
  obtain ⟨fuel, rfl⟩ := Nat.exists_eq_add_one_of_ne_zero (n := fuel) (by omega)
  match hspells with
  | @SpellsMembers.last _ _ _ w k w₁ w₂ s w₃ key value hw hkey hw₁ hw₂ hvalue hw₃ =>
    rw [heightMembers, heightMembers] at hheight
    have hnew := notMem_of_nodup hkeys
    simp only [append_assoc, cons_append] at hskipped
    obtain ⟨w₀, rfl, hw₀, hlength⟩ := hskipped.exists_blank hw (solid_spellsString hkey _)
    simp only [length_append, length_cons] at hfuel
    apply gives_member hw₀ hkey hw₁ hnew (by omega) h
    intro pos hpos
    have hgives : Gives text (w₃ ++ '}'.toUInt8 :: rest) value
        (parseValue strtod text fuel pos (depth + 1)) := by
      apply gives_value hstrtod hvalue hpos hw₂ _ (by omega) hdistinct.1
      · simp only [length_append, length_cons]
        omega
      · exact stops_blank_append hw₃ (stops_cons _ (by decide) (by decide) (by decide) (by decide))
    refine hgives.bind fun pos hpos => ?_
    have hskip := skipWhitespace_blank hpos hw₃ (solid_cons rest (by decide))
    dsimp only
    rw [consume_cons hskip]
    exact Gives.ok hskip.tail
  | @SpellsMembers.cons _ _ _ w k w₁ w₂ s w₃ t key value members' hw hkey hw₁ hw₂ hvalue hw₃
      hmembers =>
    rw [heightMembers] at hheight
    have hnew := notMem_of_nodup hkeys
    simp only [append_assoc, cons_append] at hskipped
    obtain ⟨w₀, rfl, hw₀, hlength⟩ := hskipped.exists_blank hw (solid_spellsString hkey _)
    simp only [length_append, length_cons] at hfuel
    apply gives_member hw₀ hkey hw₁ hnew (by omega) h
    intro pos hpos
    have hgives : Gives text (w₃ ++ ','.toUInt8 :: (t ++ '}'.toUInt8 :: rest)) value
        (parseValue strtod text fuel pos (depth + 1)) := by
      apply gives_value hstrtod hvalue hpos hw₂ _ (by omega) hdistinct.1
      · simp only [length_append, length_cons]
        omega
      · exact stops_blank_append hw₃ (stops_cons _ (by decide) (by decide) (by decide) (by decide))
    refine hgives.bind fun pos hpos => ?_
    have hskip := skipWhitespace_blank hpos hw₃
      (solid_cons (t ++ '}'.toUInt8 :: rest) (by decide))
    have hcomma : (','.toUInt8 :: (t ++ '}'.toUInt8 :: rest)).head? ≠ some '}'.toUInt8 :=
      fun heq => absurd (some.inj heq) (by decide)
    dsimp only
    rw [consume_of_head?_ne hskip hcomma, consume_cons hskip]
    have hrest : 2 * (t ++ '}'.toUInt8 :: rest).length + 2 ≤ fuel := by
      rw [length_append, length_cons]
      omega
    have hheight' : heightMembers members' + depth ≤ maxDepth := by omega
    have hkeys' : ((members ++ [(key, value)] ++ members').map Prod.fst).Nodup := by
      rw [append_assoc]
      exact hkeys
    have hgives := gives_members hstrtod hmembers (members ++ [(key, value)]) hskip.tail
      (.inl rfl) hheight' hdistinct.2 hkeys' hrest
    rwa [append_assoc] at hgives

end

/-! ### The reader -/

/-- The values that the reader accepts: none is inside of more than 32 containers, and no object
has two members with one key. -/
structure WithinLimits (value : Value D) : Prop where
  height : value.height ≤ maxDepth
  distinct : value.Distinct

theorem gives_parse (hstrtod : ∀ d : Decimal, strtod d.text = toDouble d) {value : Value D}
    (htext : SpellsText plainAscii (numberOf toDouble) text value) (hlimits : WithinLimits value)
    (hfuel : 2 * text.length + 1 ≤ fuel) : parse strtod text fuel = .ok value := by
  obtain ⟨before, s, after, rfl, hbefore, hafter, hspells⟩ := htext
  have hstart := skipWhitespace_blank (CursorAt.start _) hbefore (solid_spells hspells after)
  have hstops : Stops after := by
    rw [← append_nil after]
    exact stops_blank_append hafter stops_nil
  have hlength : 2 * ([] ++ (s ++ after)).length + 1 ≤ fuel := by
    simp only [nil_append, length_append] at hfuel ⊢
    omega
  have hheight : value.height + 0 ≤ maxDepth := hlimits.height
  obtain ⟨pos, hvalue, hpos⟩ := gives_value hstrtod hspells hstart blank_nil hstops hheight
    hlimits.distinct hlength
  have hpos' : CursorAt (before ++ (s ++ after)) pos (after ++ []) := by
    rw [append_nil]
    exact hpos
  have hend := skipWhitespace_blank hpos' hafter fun _ => nofun
  have hskip : skipWhitespace (before ++ (s ++ after)) pos = (before ++ (s ++ after)).length := by
    have hlength := hend.length
    rwa [length_nil, Nat.add_zero] at hlength
  unfold parse
  rw [hvalue, ok_bind]
  dsimp only
  rw [if_pos hskip]

theorem reads_parse (hstrtod : ∀ d : Decimal, strtod d.text = toDouble d)
    (hfuel : 2 * text.length + 1 ≤ fuel) :
    match parse strtod text fuel with
    | .ok value => SpellsText plainAscii (numberOf toDouble) text value ∧ WithinLimits value
    | .error stop => Refusal stop := by
  obtain ⟨before, rest, hrest, hbefore, hpos⟩ := skip_cases (CursorAt.start text)
  have hlength : 2 * rest.length + 1 ≤ fuel := by
    rw [hrest, length_append] at hfuel
    omega
  have hreads := (reads_all hstrtod fuel).1 _ 0 rest hpos hlength
  unfold parse
  cases hvalue : parseValue strtod text fuel (skipWhitespace text 0) 0 with
  | error stop =>
    rw [hvalue] at hreads
    exact hreads
  | ok result =>
    rw [hvalue] at hreads
    obtain ⟨value, pos⟩ := result
    obtain ⟨s, rest', rfl, hpos', ⟨w, t, rfl, hw, hspells⟩, hheight, hdistinct⟩ := hreads
    rw [ok_bind]
    dsimp only
    split
    · next h =>
      split at h
      · next hend =>
        cases h
        refine ⟨⟨before ++ w, t, rest', ?_, hbefore.append hw, ?_, hspells⟩, hheight, hdistinct⟩
        · rw [hrest, append_assoc, append_assoc]
        · exact dropWhile_eq_nil_iff.mp
            ((skipWhitespace_cursor hpos').length_le_iff.mp (le_of_eq hend.symm))
      · cases h
    · next h =>
      split at h
      · cases h
      · cases h
        exact ⟨_, rfl⟩

/-- The reader ends, reads no byte past the text, and accepts exactly the texts of the values that
it has no limit against, each with the value that it spells. -/
theorem parse_eq_ok_iff (hstrtod : ∀ d : Decimal, strtod d.text = toDouble d)
    (hfuel : 2 * text.length + 1 ≤ fuel) :
    (∀ value, parse strtod text fuel = .ok value ↔
      SpellsText plainAscii (numberOf toDouble) text value ∧ WithinLimits value) ∧
    ∀ stop, parse strtod text fuel = .error stop → ∃ error, stop = .fail error := by
  have hreads := reads_parse hstrtod hfuel
  refine ⟨fun value => ⟨fun hvalue => ?_, fun ⟨htext, hlimits⟩ => ?_⟩, fun stop hstop => ?_⟩
  · rw [hvalue] at hreads
    exact hreads
  · exact gives_parse hstrtod htext hlimits hfuel
  · rw [hstop] at hreads
    exact hreads

/-- What `strtod` makes of a literal without fraction and exponent. -/
def readInteger (literal : List UInt8) : Int :=
  let magnitude := literal.foldl (fun (n : Int) c =>
    if isDigit c then n * 10 + (c.toNat - '0'.toNat : Nat) else n) 0
  if literal.head? = some '-'.toUInt8 then -magnitude else magnitude

/-- `[-7]`. -/
theorem parse_eq_ok_iff_seven :
    ∃ value : Value Int, parse readInteger ['['.toUInt8, '-'.toUInt8, '7'.toUInt8, ']'.toUInt8] 9 =
      .ok value ∧
      SpellsText plainAscii (numberOf fun d => readInteger d.text)
        ['['.toUInt8, '-'.toUInt8, '7'.toUInt8, ']'.toUInt8] value ∧ WithinLimits value := by
  have hvalue : parse readInteger ['['.toUInt8, '-'.toUInt8, '7'.toUInt8, ']'.toUInt8] 9 =
      .ok (.array [.number { number := -7, integral := true, negative := true }]) := by
    with_unfolding_all rfl
  exact ⟨_, hvalue, ((parse_eq_ok_iff (fun _ => rfl) (by decide)).1 _).mp hvalue⟩

/-! ### Nested arrays -/

/-- So many arrays inside of each other, and an empty one inside of them. -/
def nestedArray : Nat → Value D
  | 0 => .array []
  | n + 1 => .array [nestedArray n]

def nestedText : Nat → List UInt8
  | 0 => ['['.toUInt8, ']'.toUInt8]
  | n + 1 => '['.toUInt8 :: (nestedText n ++ [']'.toUInt8])

theorem spells_nestedArray (n : Nat) : SpellsValue toDouble (nestedText n) (nestedArray n) := by
  induction n with
  | zero => exact .emptyArray blank_nil
  | succ n ih =>
    have hitems := SpellsItems.last blank_nil ih blank_nil
    rw [append_nil, nil_append] at hitems
    exact .array hitems

theorem height_nestedArray (n : Nat) : height (nestedArray n : Value D) = n := by
  induction n with
  | zero => rfl
  | succ n ih =>
    rw [nestedArray, height, heightItems, heightItems, ih]
    omega

theorem nesting_nestedArray (n : Nat) : nesting (nestedArray n : Value D) = n + 1 := by
  induction n with
  | zero => rfl
  | succ n ih =>
    rw [nestedArray, nesting, nestingItems, nestingItems, ih]
    omega

theorem distinct_nestedArray (n : Nat) : Distinct (nestedArray n : Value D) := by
  induction n with
  | zero => trivial
  | succ n ih => exact ⟨ih, trivial⟩

theorem length_nestedText (n : Nat) : (nestedText n).length = 2 * n + 2 := by
  induction n with
  | zero => rfl
  | succ n ih =>
    rw [nestedText, length_cons, length_append, ih, length_singleton]
    omega

/-- The reader accepts 33 arrays inside of each other, of which the last is empty. -/
theorem parse_accepts_nesting_33 :
    ¬((∃ value : Value Int, parse readInteger (nestedText 32) 133 = .ok value) ↔
      ∃ value : Value Int, SpellsText plainAscii (numberOf fun d => readInteger d.text)
        (nestedText 32) value ∧ value.nesting ≤ 32 ∧ value.Distinct) := by
  have hgives : ∀ value : Value Int,
      SpellsText plainAscii (numberOf fun d => readInteger d.text) (nestedText 32) value →
        WithinLimits value → parse readInteger (nestedText 32) 133 = .ok value := by
    intro value htext hlimits
    apply gives_parse (fun _ => rfl) htext hlimits
    rw [length_nestedText]
  have hspells : SpellsText plainAscii (numberOf fun d => readInteger d.text) (nestedText 32)
      (nestedArray 32) :=
    ⟨[], nestedText 32, [], by simp, blank_nil, blank_nil, spells_nestedArray 32⟩
  have hparse := hgives (nestedArray 32) hspells
    ⟨le_of_eq (height_nestedArray 32), distinct_nestedArray 32⟩
  intro hiff
  obtain ⟨value, htext, hnesting, hdistinct⟩ := hiff.mp ⟨_, hparse⟩
  have hvalue := hgives value htext ⟨(height_le_nesting value).trans hnesting, hdistinct⟩
  rw [hparse] at hvalue
  rw [← Except.ok.inj hvalue, nesting_nestedArray] at hnesting
  omega

end TrinityCore.Bots.RouteNativeJson
