import TrinityCore.Bots.ActionArbiter
import TrinityCore.Lib.JsonWriting
import TrinityCore.Lib.StreamNumber

/-!
# The evidence of the decision kernel

`Kernel::LastResolutionJson` of `BotActionArbiter.h` and its escaper: which resolutions are
written as a JSON text that gives their strings back.
-/

namespace TrinityCore.Bots.ActionArbitration

open ByteStream CandidateTrace JsonText List

open JsonText (quote backslash arrayText objectText)

/-- The bytes of a string. -/
def bytes (s : String) : List UInt8 := s.toUTF8.data.toList

/-- One round of the loop of `Kernel::Escape`. -/
def escapeByte (c : UInt8) : List UInt8 :=
  (if c = backslash ∨ c = quote then [backslash] else []) ++
    (if c = 0x0a then [backslash, 'n'.toUInt8] else [c])

/-- `Kernel::Escape`. -/
def escape (value : List UInt8) : List UInt8 := value.flatMap escapeByte

/-- An escaped string between its quotes. -/
def quoted (s : String) : List UInt8 := quote :: (escape (bytes s) ++ [quote])

/-- A truth value. -/
def flag (value : Bool) : List UInt8 := if value then trueText else falseText

/-- `ToString`. -/
def Phase.name : Phase → String
  | .proposed => "proposed"
  | .deferred => "deferred"
  | .selected => "selected"
  | .submitted => "submitted"
  | .started => "started"
  | .progressed => "progressed"
  | .completed => "completed"
  | .failed => "failed"
  | .terminal => "terminal"

/-- The members of one object of the `candidates` array. -/
def CandidateTrace.members (trace : CandidateTrace) : List (List UInt8 × List UInt8) :=
  [(bytes "key", quoted trace.key),
    (bytes "source", quoted trace.source),
    (bytes "status", quoted trace.status),
    (bytes "reason", quoted trace.reason),
    (bytes "priority", decimal trace.actionPriority.toUInt8.toNat),
    (bytes "score", StreamNumber.ofFloat32 trace.score),
    (bytes "resources", decimal trace.requiredResources.toNat),
    (bytes "phase", quote :: (bytes trace.lifecyclePhase.name ++ [quote]))]

/-- One object of the `candidates` array. -/
def CandidateTrace.json (trace : CandidateTrace) : List UInt8 := objectText trace.members

/-- The members of the whole object. -/
def Resolution.members (resolution : Resolution) : List (List UInt8 × List UInt8) :=
  [(bytes "committed", flag resolution.anyCommitted),
    (bytes "terminal", flag resolution.terminal),
    (bytes "claimed_resources", decimal resolution.claimedResources.toNat),
    (bytes "committed_candidates", arrayText (resolution.committedCandidates.map quoted)),
    (bytes "candidates", arrayText (resolution.trace.map json))]

/-- `Kernel::LastResolutionJson`. -/
def lastResolutionJson (resolution : Resolution) : List UInt8 := objectText resolution.members

/-! ### What the text should say -/

/-- A value of JSON whose numbers are kept as they are written. -/
abbrev Evidence := JsonValue (List UInt8)

/-- What a candidate is recorded as. -/
def CandidateTrace.evidence (trace : CandidateTrace) : Evidence :=
  .object
    [(bytes "key", .string (bytes trace.key)),
      (bytes "source", .string (bytes trace.source)),
      (bytes "status", .string (bytes trace.status)),
      (bytes "reason", .string (bytes trace.reason)),
      (bytes "priority", .number (decimal trace.actionPriority.toUInt8.toNat)),
      (bytes "score", .number (StreamNumber.ofFloat32 trace.score)),
      (bytes "resources", .number (decimal trace.requiredResources.toNat)),
      (bytes "phase", .string (bytes trace.lifecyclePhase.name))]

/-- What a resolution is recorded as. -/
def Resolution.evidence (resolution : Resolution) : Evidence :=
  .object
    [(bytes "committed", .bool resolution.anyCommitted),
      (bytes "terminal", .bool resolution.terminal),
      (bytes "claimed_resources", .number (decimal resolution.claimedResources.toNat)),
      (bytes "committed_candidates",
        .array (resolution.committedCandidates.map fun key => .string (bytes key))),
      (bytes "candidates", .array (resolution.trace.map CandidateTrace.evidence))]

/-- The text is JSON for the evidence of the resolution; `decode` says what an escaped code unit
stands for. -/
def WellFormed (decode : Nat → Option (List UInt8)) (resolution : Resolution) : Prop :=
  JsonText.SpellsText decode JsonText.Decimal.text (lastResolutionJson resolution)
    resolution.evidence

/-- The strings of a candidate that are escaped. -/
def CandidateTrace.strings (trace : CandidateTrace) : List String :=
  [trace.key, trace.source, trace.status, trace.reason]

/-- The strings of a resolution that are escaped. -/
def Resolution.strings (resolution : Resolution) : List String :=
  resolution.committedCandidates ++ resolution.trace.flatMap CandidateTrace.strings

/-- There is no control character but the newline. -/
def Printable (s : String) : Prop := ∀ c ∈ bytes s, 0x20 ≤ c ∨ c = 0x0a

instance (s : String) : Decidable (Printable s) :=
  decidableBAll (fun c => 0x20 ≤ c ∨ c = 0x0a) (bytes s)

/-- There are only ASCII characters. -/
def Ascii (s : String) : Prop := ∀ c ∈ bytes s, c < 0x80

instance (s : String) : Decidable (Ascii s) := decidableBAll (fun c => c < 0x80) (bytes s)

/-! ### The escaper -/

variable {trace : CandidateTrace}

section

variable {decode : Nat → Option (List UInt8)}

@[simp] theorem escape_nil : escape [] = [] := rfl

@[simp] theorem escape_cons (c : UInt8) (value : List UInt8) :
    escape (c :: value) = escapeByte c ++ escape value := rfl

/-- The four cases of a byte. -/
theorem escapeByte_cases (c : UInt8) :
    (c = backslash ∧ escapeByte c = [backslash, backslash]) ∨
    (c = quote ∧ escapeByte c = [backslash, quote]) ∨
    (c = 0x0a ∧ escapeByte c = [backslash, 'n'.toUInt8]) ∨
    (c ≠ backslash ∧ c ≠ quote ∧ c ≠ 0x0a ∧ escapeByte c = [c]) := by
  by_cases hbackslash : c = backslash
  · subst hbackslash
    exact .inl ⟨rfl, rfl⟩
  · by_cases hquote : c = quote
    · subst hquote
      exact .inr (.inl ⟨rfl, rfl⟩)
    · by_cases hnewline : c = 0x0a
      · subst hnewline
        exact .inr (.inr (.inl ⟨rfl, rfl⟩))
      · refine .inr (.inr (.inr ⟨hbackslash, hquote, hnewline, ?_⟩))
        simp [escapeByte, hbackslash, hquote, hnewline]

/-- Escaped bytes without control characters spell what they were. -/
theorem spellsCharacters_escape {value : List UInt8} (h : ∀ c ∈ value, 0x20 ≤ c ∨ c = 0x0a) :
    JsonText.SpellsCharacters decode (escape value) value := by
  induction value with
  | nil => exact .nil
  | cons c value ih =>
    obtain ⟨hc, hrest⟩ := forall_mem_cons.mp h
    have hspelled := ih hrest
    rw [escape_cons]
    rcases escapeByte_cases c with ⟨rfl, heq⟩ | ⟨rfl, heq⟩ | ⟨rfl, heq⟩ | ⟨hb, hq, hn, heq⟩
    · rw [heq]
      exact .escaped (.simple (by decide)) hspelled
    · rw [heq]
      exact .escaped (.simple (by decide)) hspelled
    · rw [heq]
      exact .escaped (.simple (by decide)) hspelled
    · rw [heq]
      exact .unescaped (hc.resolve_right hn) hq hb hspelled

/-- The escaped bytes are passed over in a string, or the first control character stops it. -/
theorem scan_escape (value : List UInt8) :
    scan .inside (escape value) =
      if value.all fun c => 0x20 ≤ c ∨ c = 0x0a then some .inside else none := by
  induction value with
  | nil => simp
  | cons c value ih =>
    rw [escape_cons, scan_append]
    simp only [all_cons]
    rcases escapeByte_cases c with ⟨rfl, heq⟩ | ⟨rfl, heq⟩ | ⟨rfl, heq⟩ | ⟨hb, hq, hn, heq⟩
    · have hpass : scan .inside [backslash, backslash] = some .inside := by decide
      have hc : (0x20 : UInt8) ≤ backslash := by decide
      simp [heq, hpass, ih, hc]
    · have hpass : scan .inside [backslash, quote] = some .inside := by decide
      have hc : (0x20 : UInt8) ≤ quote := by decide
      simp [heq, hpass, ih, hc]
    · have hpass : scan .inside [backslash, 'n'.toUInt8] = some .inside := by decide
      simp [heq, hpass, ih]
    · by_cases hcontrol : c < 0x20
      · simp [heq, JsonText.Scan.next, hb, hq, hn, hcontrol, UInt8.not_le.mpr hcontrol]
      · simp [heq, JsonText.Scan.next, hb, hq, hcontrol, UInt8.not_lt.mp hcontrol, ih]

theorem spells_quoted {s : String} (h : Printable s) :
    JsonText.Spells decode JsonText.Decimal.text (quoted s) (.string (bytes s)) :=
  .string ⟨_, rfl, spellsCharacters_escape h⟩

theorem scan_quoted (s : String) :
    scan .outside (quoted s) = if Printable s then some .outside else none := by
  have hinside : JsonText.Scan.next .outside quote = some .inside := by decide
  have hclose : scan .inside [quote] = some .outside := by decide
  rw [quoted, scan_cons, hinside, Option.bind_some, scan_append, scan_escape]
  have hall : (bytes s).all (fun c => 0x20 ≤ c ∨ c = 0x0a) = true ↔ Printable s := by
    simp [Printable]
  by_cases h : Printable s
  · rw [if_pos h, if_pos (hall.mpr h)]
    exact hclose
  · rw [if_neg h, if_neg (mt hall.mp h)]
    rfl

theorem decided_quoted (s : String) : JsonText.Decided (quoted s) := by
  rw [JsonText.Decided, JsonText.Scans, scan_quoted]
  split
  · exact .inl rfl
  · exact .inr rfl

theorem scans_quoted_iff (s : String) : JsonText.Scans (quoted s) ↔ Printable s := by
  rw [JsonText.Scans, scan_quoted]
  simp

/-! ### The writer -/

theorem spells_flag (value : Bool) :
    JsonText.Spells decode JsonText.Decimal.text (flag value) (.bool value) := by
  cases value with
  | false => exact .boolFalse
  | true => exact .boolTrue

theorem scans_flag (value : Bool) : JsonText.Scans (flag value) := by
  cases value <;> decide

theorem spells_decimal (n : Nat) : JsonText.Spells decode JsonText.Decimal.text
    (decimal n) (.number (decimal n)) := by
  obtain ⟨d, hd⟩ := StreamNumber.exists_decimal_of_nat n
  rw [← hd]
  exact .number d

theorem scans_decimal (n : Nat) : JsonText.Scans (decimal n) := by
  obtain ⟨d, hd⟩ := StreamNumber.exists_decimal_of_nat n
  rw [← hd]
  exact d.scans_text

theorem spells_score {score : Float32} (h : score.isFinite = true) :
    JsonText.Spells decode JsonText.Decimal.text (StreamNumber.ofFloat32 score)
      (.number (StreamNumber.ofFloat32 score)) := by
  obtain ⟨d, hd⟩ := StreamNumber.exists_decimal_of_isFinite h
  rw [← hd]
  exact .number d

theorem scans_score {score : Float32} (h : score.isFinite = true) :
    JsonText.Scans (StreamNumber.ofFloat32 score) := by
  obtain ⟨d, hd⟩ := StreamNumber.exists_decimal_of_isFinite h
  rw [← hd]
  exact d.scans_text

theorem plain_name (phase : Phase) : JsonText.Plain (bytes phase.name) := by
  cases phase <;> decide

theorem spells_name (phase : Phase) : JsonText.Spells decode JsonText.Decimal.text
    (quote :: (bytes phase.name ++ [quote])) (.string (bytes phase.name)) :=
  .string ⟨_, rfl, spellsCharacters_of_plain (plain_name phase)⟩

theorem scans_name (phase : Phase) :
    JsonText.Scans (quote :: (bytes phase.name ++ [quote])) := by
  cases phase <;> decide

/-- A candidate whose strings are printable. -/
theorem CandidateTrace.spells_json (hfinite : trace.score.isFinite = true)
    (h : ∀ s ∈ trace.strings, Printable s) :
    JsonText.Spells decode JsonText.Decimal.text trace.json trace.evidence := by
  simp only [strings, forall_mem_cons, not_mem_nil, false_implies,
    implies_true, and_true] at h
  obtain ⟨hkey, hsource, hstatus, hreason⟩ := h
  refine spells_objectText
    [(bytes "key", quoted trace.key, .string (bytes trace.key)),
      (bytes "source", quoted trace.source, .string (bytes trace.source)),
      (bytes "status", quoted trace.status, .string (bytes trace.status)),
      (bytes "reason", quoted trace.reason, .string (bytes trace.reason)),
      (bytes "priority", decimal trace.actionPriority.toUInt8.toNat,
        .number (decimal trace.actionPriority.toUInt8.toNat)),
      (bytes "score", StreamNumber.ofFloat32 trace.score,
        .number (StreamNumber.ofFloat32 trace.score)),
      (bytes "resources", decimal trace.requiredResources.toNat,
        .number (decimal trace.requiredResources.toNat)),
      (bytes "phase", quote :: (bytes trace.lifecyclePhase.name ++ [quote]),
        .string (bytes trace.lifecyclePhase.name))] ?_ ?_
  · simp only [forall_mem_cons, not_mem_nil, false_implies, implies_true, and_true]
    decide
  · simp only [forall_mem_cons, not_mem_nil, false_implies, implies_true, and_true]
    exact ⟨spells_quoted hkey, spells_quoted hsource, spells_quoted hstatus,
      spells_quoted hreason, spells_decimal _, spells_score hfinite, spells_decimal _,
      spells_name _⟩

theorem CandidateTrace.plain_members (trace : CandidateTrace) :
    ∀ member ∈ trace.members, JsonText.Plain member.1 := by
  simp only [members, forall_mem_cons, not_mem_nil, false_implies,
    implies_true, and_true]
  decide

section

variable (hfinite : trace.score.isFinite = true)
include hfinite

/-- The parts of a candidate go wrong inside of themselves only. -/
theorem CandidateTrace.decided_members : ∀ member ∈ trace.members, JsonText.Decided member.2 := by
  simp only [members, forall_mem_cons, not_mem_nil, false_implies,
    implies_true, and_true]
  exact ⟨decided_quoted _, decided_quoted _, decided_quoted _, decided_quoted _,
    (scans_decimal _).decided, (scans_score hfinite).decided, (scans_decimal _).decided,
    (scans_name _).decided⟩

theorem CandidateTrace.decided_json : JsonText.Decided trace.json :=
  decided_objectText trace.plain_members (decided_members hfinite)

theorem CandidateTrace.scans_json_iff :
    JsonText.Scans trace.json ↔ ∀ s ∈ trace.strings, Printable s := by
  rw [json, scans_objectText_iff trace.plain_members
    (decided_members hfinite)]
  simp only [members, strings, forall_mem_cons,
    not_mem_nil, false_implies, implies_true, and_true, scans_quoted_iff, scans_decimal,
    scans_score hfinite, scans_name]

end

/-! ### The whole text -/

variable {resolution : Resolution}

theorem Resolution.forall_strings_iff :
    (∀ s ∈ resolution.strings, Printable s) ↔
      (∀ s ∈ resolution.committedCandidates, Printable s) ∧
      ∀ trace ∈ resolution.trace, ∀ s ∈ trace.strings, Printable s := by
  simp only [Resolution.strings, forall_mem_append, mem_flatMap]
  exact and_congr_right fun _ => ⟨fun h trace hmem s hs => h s ⟨trace, hmem, hs⟩,
    fun h s ⟨trace, hmem, hs⟩ => h trace hmem s hs⟩

/-- Printable strings are written as JSON that gives them back. -/
theorem wellFormed_of_printable (hfinite : ∀ trace ∈ resolution.trace, trace.score.isFinite = true)
    (h : ∀ s ∈ resolution.strings, Printable s) : WellFormed decode resolution := by
  obtain ⟨hcommitted, htrace⟩ := Resolution.forall_strings_iff.mp h
  have hkeys : JsonText.Spells decode JsonText.Decimal.text
      (arrayText (resolution.committedCandidates.map quoted))
      (.array (resolution.committedCandidates.map fun key => .string (bytes key))) :=
    spells_arrayText quoted (fun key => .string (bytes key)) _
      fun key hmem => spells_quoted (hcommitted key hmem)
  have hcandidates : JsonText.Spells decode JsonText.Decimal.text
      (arrayText (resolution.trace.map json))
      (.array (resolution.trace.map evidence)) :=
    spells_arrayText json evidence _
      fun trace hmem => spells_json (hfinite trace hmem) (htrace trace hmem)
  refine ⟨[], lastResolutionJson resolution, [], (append_nil _).symm, blank_nil,
    blank_nil, ?_⟩
  refine spells_objectText
    [(bytes "committed", flag resolution.anyCommitted, .bool resolution.anyCommitted),
      (bytes "terminal", flag resolution.terminal, .bool resolution.terminal),
      (bytes "claimed_resources", decimal resolution.claimedResources.toNat,
        .number (decimal resolution.claimedResources.toNat)),
      (bytes "committed_candidates", arrayText (resolution.committedCandidates.map quoted),
        .array (resolution.committedCandidates.map fun key => .string (bytes key))),
      (bytes "candidates", arrayText (resolution.trace.map json),
        .array (resolution.trace.map evidence))] ?_ ?_
  · simp only [forall_mem_cons, not_mem_nil, false_implies, implies_true, and_true]
    decide
  · simp only [forall_mem_cons, not_mem_nil, false_implies, implies_true, and_true]
    exact ⟨spells_flag _, spells_flag _, spells_decimal _, hkeys, hcandidates⟩

/-- A text that scans has printable strings. -/
theorem printable_of_scans (hfinite : ∀ trace ∈ resolution.trace, trace.score.isFinite = true)
    (h : JsonText.Scans (lastResolutionJson resolution)) :
    ∀ s ∈ resolution.strings, Printable s := by
  have hplain : ∀ member ∈ resolution.members, JsonText.Plain member.1 := by
    simp only [Resolution.members, forall_mem_cons, not_mem_nil, false_implies,
      implies_true, and_true]
    decide
  have hkeys : ∀ text ∈ resolution.committedCandidates.map quoted, JsonText.Decided text :=
    forall_mem_map.mpr fun key _ => decided_quoted key
  have hcandidates : ∀ text ∈ resolution.trace.map json,
      JsonText.Decided text :=
    forall_mem_map.mpr fun trace hmem => decided_json (hfinite trace hmem)
  have hdecided : ∀ member ∈ resolution.members, JsonText.Decided member.2 := by
    simp only [Resolution.members, forall_mem_cons, not_mem_nil, false_implies,
      implies_true, and_true]
    exact ⟨(scans_flag _).decided, (scans_flag _).decided, (scans_decimal _).decided,
      decided_arrayText hkeys, decided_arrayText hcandidates⟩
  rw [lastResolutionJson, scans_objectText_iff hplain hdecided] at h
  simp only [Resolution.members, forall_mem_cons, not_mem_nil, false_implies,
    implies_true, and_true, scans_arrayText_iff hkeys,
    scans_arrayText_iff hcandidates, forall_mem_map, scans_quoted_iff] at h
  obtain ⟨-, -, -, hcommitted, htrace⟩ := h
  exact Resolution.forall_strings_iff.mpr ⟨hcommitted, fun trace hmem =>
    (scans_json_iff (hfinite trace hmem)).mp (htrace trace hmem)⟩

end

/-- The evidence of a resolution with finite scores is JSON that gives its strings back exactly
when no string has a control character other than the newline. -/
theorem wellFormed_iff (decode : Nat → Option (List UInt8)) (resolution : Resolution)
    (hfinite : ∀ trace ∈ resolution.trace, trace.score.isFinite = true) :
    WellFormed decode resolution ↔ ∀ s ∈ resolution.strings, Printable s :=
  ⟨fun h => printable_of_scans hfinite h.scans, wellFormed_of_printable hfinite⟩

/-- A resolution that committed one candidate. -/
def pulledLever (reason : String) : Resolution where
  anyCommitted := true
  committedCandidates := ["lever"]
  trace := [⟨"lever", "route", "attempted", reason, .mechanic, 0, 1, .completed⟩]

/-- A reason with a quote, a backslash and a newline. -/
theorem wellFormed_pulledLever :
    WellFormed (fun _ => none) (pulledLever "the \"left\" \\ lever\n") :=
  (wellFormed_iff (fun _ => none) (pulledLever "the \"left\" \\ lever\n") (by decide)).mpr
    (by decide)

/-- A tab in a reason is no JSON, of any value. -/
theorem tab_not_json :
    (∀ s ∈ (pulledLever "left\tlever").strings, Ascii s) ∧
    (∀ trace ∈ (pulledLever "left\tlever").trace, trace.score.isFinite = true) ∧
    ¬ ∃ value, JsonText.SpellsText (fun _ => none) JsonText.Decimal.text
      (lastResolutionJson (pulledLever "left\tlever")) value := by
  have hfinite : ∀ trace ∈ (pulledLever "left\tlever").trace, trace.score.isFinite = true := by
    decide
  refine ⟨by decide, hfinite, ?_⟩
  rintro ⟨value, hvalue⟩
  have hprintable := printable_of_scans hfinite hvalue.scans "left\tlever" (by decide)
  exact absurd hprintable (by decide)

end TrinityCore.Bots.ActionArbitration
