import TrinityCore.Chat.ChatLinkGrammar

/-!
# What `IsValidMessage` lets through

Between the turns of its loop, a message is read up to the end of a piece, or inside of a link as
far as the iterator says.
-/

namespace TrinityCore.Chat

open List

open IStringStream

variable {stores : LinkStores} {e e' : LinkExtractor} {msg text : List UInt8}

/-- A link that is read so far, by its iterator. -/
inductive Unfinished : Fin 5 → List UInt8 → Prop
  | none : Unfinished 0 []
  | color (color : List UInt8) (hlength : color.length = 8) (hpipe : pipeChar ∉ color) :
      Unfinished 1 (pipeChar :: 'c'.toUInt8 :: color)
  | data {text : List UInt8} (htext : Unfinished 1 text) (linkType data : List UInt8)
      (htype : linkType ∈ linkTypes) (hdata : pipeChar ∉ data) :
      Unfinished 2 (text ++ pipeChar :: 'H'.toUInt8 :: (linkType ++ delimiter :: data))
  | name {text : List UInt8} (htext : Unfinished 2 text) (name : List UInt8)
      (hname : ']'.toUInt8 ∉ name) :
      Unfinished 3 (text ++ pipeChar :: 'h'.toUInt8 :: '['.toUInt8 :: (name ++ [']'.toUInt8]))
  | closed {text : List UInt8} (htext : Unfinished 3 text) :
      Unfinished 4 (text ++ [pipeChar, 'h'.toUInt8])

/-- A link is read with its last command. -/
theorem Unfinished.finish (h : Unfinished 4 text) :
    ∃ piece : Piece, piece.Loose ∧ piece.bytes = text ++ [pipeChar, 'r'.toUInt8] := by
  cases h with
  | closed h =>
    cases h with
    | name h name hname =>
      cases h with
      | data h linkType data htype hdata =>
        cases h with
        | color color hlength hpipe =>
          refine ⟨.link color linkType data name, ⟨hlength, hpipe, htype, hdata, hname⟩, ?_⟩
          simp [Piece.bytes]

/-- A state between two turns: whole pieces are read, and a part of a link. -/
structure Reading (msg : List UInt8) (e : LinkExtractor) : Prop where
  good : e.iss.good = true
  short : e.iss.rest.length ≤ 255
  read : ∃ pieces : List Piece, (∀ piece ∈ pieces, piece.Loose) ∧ ∃ text, Unfinished e.iterator text ∧
    msg = pieces.flatMap Piece.bytes ++ (text ++ e.iss.rest)

/-- A message that was read to its end: a pipe may be behind its last piece. -/
def ReadToEnd (msg : List UInt8) : Prop :=
  ∃ pieces : List Piece, (∀ piece ∈ pieces, piece.Loose) ∧
    ∃ rest, (rest = [] ∨ rest = [pipeChar]) ∧ msg = pieces.flatMap Piece.bytes ++ rest

/-! ### Commands -/

variable {iss iss' : IStringStream}

theorem length_le_of_went {taken : List UInt8} (h : Went taken iss iss') :
    iss'.rest.length ≤ iss.rest.length := by
  rw [h.rest, length_append]
  omega

/-- The color of a link. -/
theorem readPayload_color (hgood : e.iss.good = true)
    (h : readPayload stores 'c'.toUInt8 e = .ok e') :
    e'.iterator = e.iterator ∧ e'.iss.good = true ∧
      ∃ color, Went color e.iss e'.iss ∧ color.length = 8 ∧ pipeChar ∉ color := by
  unfold readPayload at h
  rw [if_pos rfl] at h
  cases hread : readHex e.iss 8 with
  | error failure =>
    rw [hread] at h
    cases h
  | ok read =>
    obtain ⟨color, iss⟩ := read
    rw [hread] at h
    cases h
    obtain ⟨⟨hgood', taken, hwent, hpipe⟩, hlength⟩ := readHex_eq_ok hread
    have hpos := hwent.pos
    have hpos' := hlength (by decide)
    exact ⟨rfl, hgood' hgood, taken, hwent, by omega, hpipe⟩

/-- The type and the data of a link. -/
theorem readPayload_data (hgood : e.iss.good = true) (hshort : e.iss.rest.length ≤ 255)
    (h : readPayload stores 'H'.toUInt8 e = .ok e') :
    e'.iterator = e.iterator ∧ e'.iss.good = true ∧
      ∃ linkType data, Went (linkType ++ delimiter :: data) e.iss e'.iss ∧ linkType ∈ linkTypes ∧
        pipeChar ∉ data := by
  unfold readPayload at h
  rw [if_neg (by decide), if_pos rfl] at h
  obtain ⟨linkType, iss, hline⟩ : ∃ linkType iss, e.iss.getline 256 delimiter = (linkType, iss) :=
    ⟨_, _, rfl⟩
  rw [hline] at h
  dsimp only at h
  split at h
  · cases h
  · next heof =>
    obtain ⟨hwent, -, hgood₁⟩ := getline_of_not_eof hgood hline (Bool.eq_false_iff.mpr heof) (by omega)
    cases hlink : initializeLink stores linkType e.color iss with
    | error failure =>
      rw [hlink] at h
      cases h
    | ok read =>
      obtain ⟨link, iss'⟩ := read
      rw [hlink] at h
      cases h
      obtain ⟨hgood', data, hwent', hpipe⟩ := readsData_initializeLink linkType iss link iss' hlink
      refine ⟨rfl, hgood' hgood₁, linkType, data, ?_, mem_linkTypes_of_initializeLink hlink, hpipe⟩
      have hboth := hwent.trans hwent'
      rwa [append_assoc] at hboth

/-- The name of a link. -/
theorem readName_eq_ok (hshort : e.iss.rest.length ≤ 255) (h : readName stores e = .ok e') :
    e'.iterator = e.iterator ∧ e'.iss.good = true ∧
      ∃ name, Went ('['.toUInt8 :: (name ++ [']'.toUInt8])) e.iss e'.iss ∧ ']'.toUInt8 ∉ name := by
  unfold readName at h
  split at h
  · cases h
  · next c iss hget =>
    obtain ⟨hgood, hiss, hwent⟩ := get_eq_some hget
    split at h
    · cases h
    · next hbracket =>
      obtain ⟨name, iss', hline⟩ : ∃ name iss', iss.getline 256 ']'.toUInt8 = (name, iss') :=
        ⟨_, _, rfl⟩
      rw [hline] at h
      dsimp only at h
      split at h
      · cases h
      · next heof =>
        have hgood' : iss.good = true := hiss ▸ hgood
        have hlength := length_le_of_went hwent
        obtain ⟨hwent', hname, hgood''⟩ :=
          getline_of_not_eof hgood' hline (Bool.eq_false_iff.mpr heof) (by omega)
        cases hlink : e.link with
        | none =>
          rw [hlink] at h
          cases h
        | some link =>
          rw [hlink] at h
          dsimp only at h
          cases hvalid : link.validateName stores name with
          | error failure =>
            rw [hvalid] at h
            cases h
          | ok _ =>
            rw [hvalid] at h
            cases h
            refine ⟨rfl, hgood'', name, ?_, hname⟩
            have hboth := hwent.trans hwent'
            rwa [Decidable.not_not.mp hbracket] at hboth

theorem readPayload_name (hit : validSequence e.iterator = 'h'.toUInt8)
    (h : readPayload stores 'h'.toUInt8 e = .ok e') : readName stores e = .ok e' := by
  unfold readPayload at h
  rwa [if_neg (by decide), if_neg (by decide), if_pos rfl, if_pos hit] at h

theorem readPayload_closed (hit : validSequence e.iterator ≠ 'h'.toUInt8)
    (h : readPayload stores 'h'.toUInt8 e = .ok e') : e' = e := by
  unfold readPayload at h
  rw [if_neg (by decide), if_neg (by decide), if_pos rfl, if_neg hit] at h
  cases h
  rfl

theorem readPayload_none {c : UInt8} (hc : c = 'r'.toUInt8 ∨ c = pipeChar)
    (h : readPayload stores c e = .ok e') : e' = e := by
  unfold readPayload at h
  rcases hc with rfl | rfl
  · rw [if_neg (by decide), if_neg (by decide), if_neg (by decide), if_pos (Or.inl rfl)] at h
    cases h
    rfl
  · rw [if_neg (by decide), if_neg (by decide), if_neg (by decide), if_pos (Or.inr rfl)] at h
    cases h
    rfl

/-- A command of the sequence, with what follows it, extends the link. -/
theorem readPayload_unfinished {iterator : Fin 5} (hlast : iterator ≠ 4)
    (htext : Unfinished iterator text) (hit : e.iterator = iterator + 1)
    (hgood : e.iss.good = true) (hshort : e.iss.rest.length ≤ 255)
    (h : readPayload stores (validSequence iterator) e = .ok e') :
    e'.iterator = iterator + 1 ∧ e'.iss.good = true ∧ ∃ taken, Went taken e.iss e'.iss ∧
      Unfinished (iterator + 1) (text ++ pipeChar :: validSequence iterator :: taken) := by
  rw [← hit]
  cases htext with
  | none =>
    obtain ⟨hit', hgood', color, hwent, hlength, hpipe⟩ := readPayload_color hgood h
    refine ⟨hit', hgood', color, hwent, ?_⟩
    rw [hit]
    exact .color color hlength hpipe
  | color color hlength hpipe =>
    obtain ⟨hit', hgood', linkType, data, hwent, htype, hdata⟩ := readPayload_data hgood hshort h
    refine ⟨hit', hgood', _, hwent, ?_⟩
    rw [hit]
    exact .data (.color color hlength hpipe) linkType data htype hdata
  | data htext linkType data htype hdata =>
    have hnext : validSequence e.iterator = 'h'.toUInt8 := by
      rw [hit]
      rfl
    have hname := readPayload_name hnext h
    obtain ⟨hit', hgood', name, hwent, hname⟩ := readName_eq_ok hshort hname
    refine ⟨hit', hgood', _, hwent, ?_⟩
    rw [hit]
    exact .name (.data htext linkType data htype hdata) name hname
  | name htext name hname =>
    have heq : e' = e := by
      apply readPayload_closed _ h
      rw [hit]
      decide
    rw [heq]
    refine ⟨rfl, hgood, [], Went.refl _, ?_⟩
    rw [hit]
    exact .closed (.name htext name hname)
  | closed htext => exact absurd rfl hlast

/-! ### Turns -/

theorem nextIterator_eq_ok {iterator iterator' : Fin 5} {c : UInt8}
    (h : nextIterator iterator c = .ok iterator') :
    c = pipeChar ∧ iterator = 0 ∧ iterator' = 0 ∨
      c = validSequence iterator ∧ iterator' = iterator + 1 := by
  unfold nextIterator at h
  split at h
  · split at h
    · next hc =>
      split at h
      · next hlast =>
        cases h
        rw [hlast]
        exact .inr ⟨hlast ▸ hc, rfl⟩
      · cases h
        exact .inr ⟨hc, rfl⟩
    · cases h
  · next hc =>
    split at h
    · cases h
    · next hzero =>
      cases h
      exact .inl ⟨Decidable.not_not.mp hc, Decidable.not_not.mp hzero, Decidable.not_not.mp hzero⟩

theorem tellg_rest (iss : IStringStream) : iss.tellg.2.rest = iss.rest := by
  unfold tellg
  split
  · rfl
  · rfl

theorem tellg_of_good (hgood : iss.good = true) : iss.tellg.2 = iss := by
  unfold tellg
  rw [if_pos hgood]

theorem went_tellg {taken : List UInt8} (h : Went taken iss iss') :
    Went taken iss iss'.tellg.2 := by
  unfold tellg
  split
  · exact h
  · exact h.flags iss'.eof true

/-- The pipe that a turn begins with; outside of a sequence there may be none. -/
theorem seekPipe_eq_ok (hgood : e.iss.good = true) (hshort : e.iss.rest.length ≤ 255)
    (h : seekPipe e = .ok e') :
    e'.iterator = e.iterator ∧ ∃ taken, pipeChar ∉ taken ∧ (e.iterator ≠ 0 → taken = []) ∧
      (Went taken e.iss e'.iss ∧ e'.iss.rest = [] ∧ e.iterator = 0 ∨
        Went (taken ++ [pipeChar]) e.iss e'.iss ∧ e'.iss.good = true) := by
  unfold seekPipe at h
  split at h
  · next hzero =>
    cases h
    refine ⟨rfl, ?_⟩
    obtain ⟨taken, hwent, hend, hpipe⟩ | ⟨taken, hwent, hpipe, hgood'⟩ :=
      @ignore_cases e.iss pipeChar 255 hgood hshort
    · exact ⟨taken, hpipe, fun hne => absurd hzero hne,
        Or.inl ⟨went_tellg hwent, (tellg_rest _).trans hend, hzero⟩⟩
    · refine ⟨taken, hpipe, fun hne => absurd hzero hne, .inr ⟨went_tellg hwent, ?_⟩⟩
      exact (congrArg IStringStream.good (tellg_of_good hgood')).trans hgood'
  · split at h
    · next hget =>
      obtain ⟨-, hiss, hwent⟩ := get_eq_some hget
      split at h
      · next hpipe =>
        cases h
        refine ⟨rfl, [], not_mem_nil, fun _ => rfl, .inr ⟨hpipe ▸ hwent, ?_⟩⟩
        rw [hiss]
        exact hgood
      · cases h
    · cases h

theorem get_of_peek {c : UInt8} (h : iss.peek.2.get = (some c, iss')) :
    iss.get = (some c, iss') := by
  have hgood := (get_eq_some h).1
  unfold peek at h hgood
  split at h
  · next hg =>
    rw [if_pos hg] at hgood
    split at h
    · next hrest =>
      rw [hrest] at hgood
      simp [good] at hgood
    · exact h
  · next hg =>
    rw [if_neg hg] at hgood
    simp [good, refuse] at hgood

/-- A turn that the loop goes on from. -/
theorem turn_yield (h : turn stores e = .ok (.yield e')) :
    ∃ e₁, seekPipe e = .ok e₁ ∧ ∃ c iss, e₁.iss.get = (some c, iss) ∧
      ∃ iterator, nextIterator e₁.iterator c = .ok iterator ∧
        readPayload stores c { e₁ with iss, iterator } = .ok e' := by
  unfold turn at h
  split at h
  · cases h
  · cases hseek : seekPipe e with
    | error failure =>
      rw [hseek] at h
      cases h
    | ok e₁ =>
      rw [hseek] at h
      dsimp only [bind, Except.bind] at h
      refine ⟨e₁, rfl, ?_⟩
      split at h
      · cases h
      · split at h
        · cases h
        · split at h
          · cases h
          · next c iss hget =>
            refine ⟨c, iss, get_of_peek hget, ?_⟩
            split at h
            · cases h
            · next iterator hnext =>
              split at h
              · cases h
              · next e₂ hpayload =>
                cases h
                exact ⟨iterator, hnext, hpayload⟩

/-- A turn that the loop ends with. -/
theorem turn_done (h : turn stores e = .ok (.done e')) :
    e.iss.eof = true ∨ ∃ e₁, seekPipe e = .ok e₁ ∧ e'.iterator = e₁.iterator ∧
      e₁.iss.peek.2.eof = true := by
  unfold turn at h
  split at h
  · next heof => exact .inl heof
  · cases hseek : seekPipe e with
    | error failure =>
      rw [hseek] at h
      cases h
    | ok e₁ =>
      rw [hseek] at h
      dsimp only [bind, Except.bind] at h
      refine .inr ⟨e₁, rfl, ?_⟩
      split at h
      · cases h
      · split at h
        · next heof =>
          cases h
          exact ⟨rfl, heof⟩
        · split at h
          · cases h
          · split at h
            · cases h
            · split at h
              · cases h
              · cases h

/-- A turn keeps what was read whole. -/
theorem Reading.turn (hread : Reading msg e) (h : turn stores e = .ok (.yield e')) :
    Reading msg e' := by
  obtain ⟨e₁, hseek, c, iss, hget, iterator, hnext, hpayload⟩ := turn_yield h
  obtain ⟨pieces, hpieces, text, htext, hmsg⟩ := hread.read
  obtain ⟨hit, taken, hpipe, hempty, hend⟩ := seekPipe_eq_ok hread.good hread.short hseek
  obtain ⟨hgood₁, hiss, hwent₁⟩ := get_eq_some hget
  have hgood : iss.good = true := hiss ▸ hgood₁
  obtain ⟨-, hrest, -⟩ | ⟨hwent, -⟩ := hend
  · rw [hwent₁.rest] at hrest
    cases hrest
  · have hwent' := hwent.trans hwent₁
    have hshort := (length_le_of_went hwent').trans hread.short
    rw [hit] at hnext
    rw [hwent'.rest] at hmsg
    obtain ⟨rfl, hzero, rfl⟩ | ⟨rfl, rfl⟩ := nextIterator_eq_ok hnext
    · -- An escaped pipe.
      cases readPayload_none (.inr rfl) hpayload
      rw [hzero] at htext
      cases htext
      refine ⟨hgood, hshort, pieces ++ [.plain taken, .escapedPipe], ?_, [], .none, ?_⟩
      · intro piece hmem
        simp only [mem_append, mem_cons, not_mem_nil, or_false] at hmem
        rcases hmem with hmem | rfl | rfl
        · exact hpieces piece hmem
        · exact hpipe
        · trivial
      · rw [hmsg]
        simp [Piece.bytes]
    · by_cases hlast : e.iterator = 4
      · -- The end of a link.
        rw [hlast] at htext hpayload
        cases readPayload_none (.inl rfl) hpayload
        obtain ⟨piece, hpiece, hbytes⟩ := htext.finish
        have hnil := hempty (by rw [hlast]; decide)
        refine ⟨hgood, hshort, pieces ++ [piece], ?_, [], .none, ?_⟩
        · intro piece' hmem
          cases mem_append.mp hmem with
          | inl hmem => exact hpieces piece' hmem
          | inr hmem => exact mem_singleton.mp hmem ▸ hpiece
        · rw [hmsg, hnil, hlast]
          simp [hbytes, validSequence]
      · obtain ⟨hit', hgood', data, hdata, htext'⟩ :=
          readPayload_unfinished hlast htext rfl hgood hshort hpayload
        have hshort' := (length_le_of_went hdata).trans hshort
        by_cases hzero : e.iterator = 0
        · -- The beginning of a link, behind plain text.
          rw [hzero] at htext htext' hmsg
          cases htext
          refine ⟨hgood', hshort', pieces ++ [.plain taken], ?_,
            pipeChar :: validSequence 0 :: data, ?_, ?_⟩
          · intro piece hmem
            cases mem_append.mp hmem with
            | inl hmem => exact hpieces piece hmem
            | inr hmem =>
              cases mem_singleton.mp hmem
              exact hpipe
          · rw [hit', hzero]
            exact htext'
          · rw [hmsg, hdata.rest]
            simp [Piece.bytes]
        · have hnil := hempty hzero
          refine ⟨hgood', hshort', pieces, hpieces, _, hit' ▸ htext', ?_⟩
          rw [hmsg, hnil, hdata.rest]
          simp

/-- The last turn, outside of a sequence. -/
theorem Reading.finish (hread : Reading msg e) (h : Chat.turn stores e = .ok (.done e'))
    (hit : e'.iterator = 0) : ReadToEnd msg := by
  obtain ⟨pieces, hpieces, text, htext, hmsg⟩ := hread.read
  have hgood := hread.good
  obtain heof | ⟨e₁, hseek, hsame, heof⟩ := turn_done h
  · rw [eof_of_good hgood] at heof
    cases heof
  · obtain ⟨hit₁, taken, hpipe, -, hend⟩ := seekPipe_eq_ok hgood hread.short hseek
    rw [← hit₁, ← hsame, hit] at htext
    cases htext
    have hplain : ∀ piece ∈ pieces ++ [Piece.plain taken], piece.Loose := by
      intro piece hmem
      cases mem_append.mp hmem with
      | inl hmem => exact hpieces piece hmem
      | inr hmem =>
        cases mem_singleton.mp hmem
        exact hpipe
    obtain ⟨hwent, hrest, -⟩ | ⟨hwent, hgood₁⟩ := hend
    · refine ⟨_, hplain, [], .inl rfl, ?_⟩
      rw [hmsg, hwent.rest, hrest]
      simp [Piece.bytes]
    · -- Nothing is behind the pipe.
      have hrest : e₁.iss.rest = [] := by
        unfold peek at heof
        rw [if_pos hgood₁] at heof
        split at heof
        · next hrest => exact hrest
        · rw [eof_of_good hgood₁] at heof
          cases heof
      refine ⟨_, hplain, [pipeChar], .inr rfl, ?_⟩
      rw [hmsg, hwent.rest, hrest]
      simp [Piece.bytes]

theorem Reading.turns {fuel : Nat} (hread : Reading msg e) (h : turns stores fuel e = .ok ()) :
    ReadToEnd msg := by
  induction fuel generalizing e with
  | zero => cases h
  | succ fuel ih =>
    unfold Chat.turns at h
    cases hturn : Chat.turn stores e with
    | error failure =>
      rw [hturn] at h
      cases h
    | ok step =>
      rw [hturn] at h
      cases step with
      | done e' =>
        dsimp only [bind, Except.bind] at h
        split at h
        · next hit => exact hread.finish hturn hit
        · cases h
      | yield e' => exact ih (hread.turn hturn) h

/-! ### The number of turns -/

/-- What `IsValidMessage` accepts consists of pieces, and perhaps of a last pipe. -/
theorem readToEnd_of_isValidMessage {msg : CString} (hlength : msg.val.length ≤ 255)
    (h : isValidMessage stores msg = .ok ()) : ReadToEnd msg.val :=
  Reading.turns ⟨rfl, hlength, [], nofun, [], .none, rfl⟩ h

theorem OnlyCompleteLinks.tidy (h : OnlyCompleteLinks text) : Chat.tidy text = true := by
  obtain ⟨pieces, hpieces, hmsg, -⟩ := h
  rw [hmsg]
  exact tidy_of_complete hpieces

/-- An accepted message consists of complete links, plain text and escaped pipes just where a scan
of its pipes finds it tidy. -/
theorem onlyCompleteLinks_iff_tidy (stores : LinkStores) (msg : CString)
    (hlength : msg.val.length ≤ 255) (haccepted : isValidMessage stores msg = .ok ()) :
    OnlyCompleteLinks msg.val ↔ tidy msg.val = true := by
  constructor
  · exact OnlyCompleteLinks.tidy
  · intro htidy
    obtain ⟨pieces, hpieces, rest, hrest, hmsg⟩ :=
      readToEnd_of_isValidMessage hlength haccepted
    rw [hmsg] at htidy
    obtain ⟨hcomplete, hend⟩ := complete_of_tidy hpieces htidy
    obtain rfl | rfl := hrest
    · refine ⟨pieces, hcomplete, ?_, paired_of_complete hcomplete⟩
      rw [hmsg, append_nil]
    · cases hend

/-- Stores of one recipe of one profession. -/
def engineeringStores : LinkStores where
  getItemTemplate _ := none
  itemRandomProperties _ := none
  itemRandomSuffix _ := none
  getQuestTemplate _ := none
  getSpellInfo id :=
    if id = 3919 then some ⟨3919, "Rough Dynamite".toUTF8.toList, true⟩ else none
  skillLineAbility id := if id = 3919 then some 202 else none
  skillLine id := if id = 202 then some "Engineering".toUTF8.toList else none
  getAchievement _ := none
  talent _ := none
  glyphProperties _ := none

/-- The link of the recipe, with these two bytes behind the name of the profession. -/
def recipeLink (separator : String) : List UInt8 :=
  ("|cffffd000|Henchant:3919|h[Engineering" ++ separator ++ "Rough Dynamite]|h|r").toUTF8.toList

theorem onlyCompleteLinks_iff_tidy_recipe :
    OnlyCompleteLinks (recipeLink ": ") ↔ tidy (recipeLink ": ") = true :=
  onlyCompleteLinks_iff_tidy engineeringStores ⟨recipeLink ": ", by decide +kernel⟩
    (by decide +kernel) (by decide +kernel)

/-- A name may end the color of the link before the link ends. -/
theorem isValidMessage_accepts_color_end : ¬∀ (stores : LinkStores) (msg : CString),
    msg.val.length ≤ 255 → isValidMessage stores msg = .ok () → OnlyCompleteLinks msg.val := by
  intro h
  have hcomplete := h engineeringStores ⟨recipeLink "|r", by decide +kernel⟩ (by decide +kernel)
    (by decide +kernel)
  have htidy : tidy (recipeLink "|r") = false := by decide +kernel
  exact nomatch hcomplete.tidy.symm.trans htidy

end TrinityCore.Chat
