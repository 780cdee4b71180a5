import TrinityCore.Chat.ChatLink

/-!
# What the readers of links read

No reader of the data of a link reads a pipe, and the stream of one that succeeds is good.
-/

namespace TrinityCore.Chat

open IStringStream List

variable {α β : Type} {iss iss' : IStringStream}

/-! ### What the readers of links inherit -/

/-- A reader of the data of a link. -/
abbrev Reader (α : Type) := IStringStream → Except LinkFailure (α × IStringStream)

/-- A property of the readers of fields that every reader put together of them has. -/
structure Inherited (P : ∀ {α : Type}, Reader α → Prop) : Prop where
  ok : ∀ {α : Type} (a : α), P fun iss => .ok (a, iss)
  rejected : ∀ {α : Type}, @P α fun _ => .error .rejected
  bind : ∀ {α β : Type} {read : Reader α}
    {f : α × IStringStream → Except LinkFailure (β × IStringStream)},
    P read → (∀ a, P fun iss => f (a, iss)) → P fun iss => read iss >>= f
  readUInt32 : P readUInt32
  readInt32 : P readInt32
  checkDelimiter : P fun iss => checkDelimiter iss delimiter
  readHex : ∀ length, P fun iss => readHex iss length

/-- What `TradeChatLink::Initialize` reads before it skips the rest of the data. -/
def tradeFields (stores : LinkStores) (iss : IStringStream) :
    Except LinkFailure (LinkedSpell × IStringStream) := do
  let (spellId, iss) ← readUInt32 iss
  let spell ← lookup (stores.getSpellInfo spellId)
  let (_, iss) ← readProperty iss
  let (_, iss) ← readProperty iss
  let (_, iss) ← checkDelimiter iss delimiter
  let (_, iss) ← readHex iss 0
  .ok (spell, iss)

variable {stores : LinkStores} {color : UInt32}

theorem initializeTrade_eq : initializeTrade stores color iss =
    if color ≠ chatLinkColorTrade then .error .rejected
    else (do
      let (spell, iss) ← tradeFields stores iss
      let (_, iss) ← readSkip iss pipeChar
      .ok (.spell spell, iss)) := by
  unfold initializeTrade tradeFields
  simp only [bind_assoc]
  rfl

namespace Inherited

variable {P : ∀ {α : Type}, Reader α → Prop} (h : Inherited @P)
include h

theorem lookup (found : Option α) {f : α → Reader β} (hf : ∀ a, P (f a)) :
    P fun iss => Chat.lookup found >>= fun a => f a iss := by
  cases found with
  | none => exact h.rejected
  | some a => exact hf a

omit h in
theorem ite {c : Prop} [Decidable c] {read read' : Reader α} (hread : P read) (hread' : P read') :
    P fun iss => if c then read iss else read' iss := by
  split
  · exact hread
  · exact hread'

theorem readProperty : P readProperty := by
  apply h.bind h.checkDelimiter
  intro _
  exact h.readInt32

theorem readProperties (count index : Nat) (suffixStrings : SuffixStrings) :
    P fun iss => readProperties stores count index iss suffixStrings := by
  induction count generalizing index suffixStrings with
  | zero => exact h.ok suffixStrings
  | succ count ih =>
    apply h.bind h.readProperty
    intro id
    apply ite
    · apply ite
      · apply h.lookup
        intro property
        exact ih _ _
      · apply h.lookup
        intro suffix
        exact ih _ _
    · exact ih _ _

theorem skipProgress (count : Nat) : P (skipProgress count) := by
  induction count with
  | zero => exact h.ok ()
  | succ count ih =>
    apply h.bind h.checkDelimiter
    intro _
    apply h.bind h.readUInt32
    intro _
    exact ih

theorem initializeItem : P (initializeItem stores color) := by
  apply h.bind h.readUInt32
  intro itemEntry
  apply h.lookup
  intro item
  apply ite h.rejected
  apply h.bind (h.readProperties 8 0 none)
  intro suffixStrings
  exact h.ok _

theorem initializeQuest : P (initializeQuest stores) := by
  apply h.bind h.readUInt32
  intro questId
  apply h.lookup
  intro quest
  apply h.bind h.readProperty
  intro questLevel
  exact ite h.rejected (h.ok _)

theorem tradeFields : P (tradeFields stores) := by
  apply h.bind h.readUInt32
  intro spellId
  apply h.lookup
  intro spell
  apply h.bind h.readProperty
  intro _
  apply h.bind h.readProperty
  intro _
  apply h.bind h.checkDelimiter
  intro _
  apply h.bind (h.readHex 0)
  intro _
  exact h.ok _

theorem initializeTrade (hskip : P fun iss => readSkip iss pipeChar) :
    P (initializeTrade stores color) := by
  rw [show Chat.initializeTrade stores color = _ from funext fun iss => initializeTrade_eq]
  apply ite h.rejected
  apply h.bind h.tradeFields
  intro spell
  apply h.bind hskip
  intro _
  exact h.ok _

theorem initializeTalent : P (initializeTalent stores color) := by
  apply ite h.rejected
  apply h.bind h.readUInt32
  intro talentId
  apply h.lookup
  intro spellRank
  apply h.lookup
  intro spell
  apply h.bind h.readProperty
  intro _
  exact h.ok _

/-- Spells and enchantments. -/
theorem spellOfColor (own : UInt32) :
    P fun iss =>
      if color ≠ own then .error .rejected
      else (do
        let (spellId, iss) ← Chat.readUInt32 iss
        let spell ← Chat.lookup (stores.getSpellInfo spellId)
        .ok (ChatLink.spell spell, iss)) := by
  apply ite h.rejected
  apply h.bind h.readUInt32
  intro spellId
  apply h.lookup
  intro spell
  exact h.ok _

theorem initializeAchievement : P (initializeAchievement stores color) := by
  apply ite h.rejected
  apply h.bind h.readUInt32
  intro achievementId
  apply h.lookup
  intro title
  apply h.bind h.checkDelimiter
  intro _
  apply h.bind (h.readHex 0)
  intro _
  apply h.bind (h.skipProgress 8)
  intro _
  exact h.ok _

theorem initializeGlyph : P (initializeGlyph stores color) := by
  apply ite h.rejected
  apply h.bind h.readUInt32
  intro _
  apply h.bind h.checkDelimiter
  intro _
  apply h.bind h.readUInt32
  intro glyphId
  apply h.lookup
  intro spellId
  apply h.lookup
  intro spell
  exact h.ok _

/-- Links of professions have a reader of their own. -/
theorem initializeLink {linkType : List UInt8}
    (htrade : linkType = "trade".toUTF8.toList → P (Chat.initializeTrade stores color)) :
    P (initializeLink stores linkType color) := by
  apply ite h.initializeItem
  apply ite h.initializeQuest
  by_cases heq : linkType = "trade".toUTF8.toList
  · simp only [if_pos heq]
    exact htrade heq
  · simp only [if_neg heq]
    apply ite h.initializeTalent
    apply ite (h.spellOfColor _)
    apply ite (h.spellOfColor _)
    apply ite h.initializeAchievement
    exact ite h.initializeGlyph h.rejected

end Inherited

/-! ### What the readers of links read -/

/-- The second stream is as good as the first, and no pipe was read on the way to it. -/
structure PipeFree (iss iss' : IStringStream) : Prop where
  good : iss.good = true → iss'.good = true
  went : ∃ taken, Went taken iss iss' ∧ pipeChar ∉ taken

theorem PipeFree.trans {iss'' : IStringStream} (h : PipeFree iss iss') (h' : PipeFree iss' iss'') :
    PipeFree iss iss'' := by
  obtain ⟨taken, hwent, hpipe⟩ := h.went
  obtain ⟨taken', hwent', hpipe'⟩ := h'.went
  refine ⟨h'.good ∘ h.good, taken ++ taken', hwent.trans hwent', fun hmem => ?_⟩
  cases mem_append.mp hmem with
  | inl hmem => exact hpipe hmem
  | inr hmem => exact hpipe' hmem

/-- A reader that reads no pipe, where it succeeds. -/
def ReadsData (read : Reader α) : Prop :=
  ∀ iss a iss', read iss = .ok (a, iss') → PipeFree iss iss'

/-! ### Numbers and delimiters -/

theorem pipe_not_numeric {base : Nat} : ¬IsNumeric base pipeChar := by
  have hdigit : digit base pipeChar = none := by
    unfold digit
    rw [if_neg (by decide), if_neg fun h => absurd h.2 (by decide),
      if_neg fun h => absurd h.2 (by decide)]
  intro h
  rcases h with h | h | h | h | h | h
  · exact absurd h (by decide)
  · exact absurd h (by decide)
  · exact absurd h (by decide)
  · exact absurd h (by decide)
  · exact absurd h (by decide)
  · rw [hdigit] at h
    cases h

/-- A number is read, and the text goes on behind it. -/
theorem extract_pipeFree {base : Nat} {convert : Int → Option α} {a : α}
    (h : iss.extract base convert = (some a, iss')) (heof : iss'.eof = false) :
    PipeFree iss iss' := by
  obtain ⟨taken, hwent, hnumeric, -, hfail⟩ := extract_eq_some h
  refine ⟨fun _ => ?_, taken, hwent, fun hmem => pipe_not_numeric (hnumeric _ hmem)⟩
  unfold good
  rw [heof, hfail]
  rfl

theorem readsData_readUInt32 : ReadsData readUInt32 := by
  intro iss a iss' h
  unfold readUInt32 at h
  split at h
  · next hextract =>
    split at h
    · cases h
    · next heof =>
      cases h
      exact extract_pipeFree hextract (Bool.eq_false_iff.mpr heof)
  · cases h

theorem readsData_readInt32 : ReadsData readInt32 := by
  intro iss a iss' h
  unfold readInt32 at h
  split at h
  · next hextract =>
    split at h
    · cases h
    · next heof =>
      cases h
      exact extract_pipeFree hextract (Bool.eq_false_iff.mpr heof)
  · cases h

theorem readsData_checkDelimiter : ReadsData fun iss => checkDelimiter iss delimiter := by
  intro iss a iss' h
  dsimp only [checkDelimiter] at h
  split at h
  · next hpeek =>
    obtain ⟨rfl, hgood, rest, hrest⟩ := peek_eq_some hpeek
    split at h
    · next hdelim =>
      cases h
      obtain ⟨hignore, hwent⟩ := ignoreOne_cons hgood hrest
      refine ⟨fun _ => hignore ▸ hgood, _, hwent, ?_⟩
      rw [hdelim]
      decide
    · cases h
  · cases h

theorem tellg_eq_some {pos : Nat} (h : iss.tellg = (some pos, iss')) :
    iss' = iss ∧ pos = iss.pos ∧ iss.good = true := by
  unfold tellg at h
  split at h
  · next hgood =>
    cases h
    exact ⟨rfl, rfl, hgood⟩
  · exact nomatch congrArg Prod.fst h

/-- What `ReadHex` reads, of the length that it is told. -/
theorem readHex_eq_ok {length : Nat} {res : UInt32} (h : readHex iss length = .ok (res, iss')) :
    PipeFree iss iss' ∧ (length ≠ 0 → iss'.pos = iss.pos + length) := by
  unfold readHex at h
  split at h
  · cases h
  · next hstart =>
    obtain ⟨rfl, rfl, -⟩ := tellg_eq_some hstart
    split at h
    · cases h
    · next hextract =>
      split at h
      · cases h
      · next htell =>
        obtain ⟨rfl, rfl, -⟩ := tellg_eq_some htell
        split at h
        · cases h
        · next hlength =>
          split at h
          · cases h
          · next heof =>
            cases h
            have hfree := extract_pipeFree hextract (Bool.eq_false_iff.mpr heof)
            obtain ⟨taken, hwent, -⟩ := hfree.went
            refine ⟨hfree, fun hne => ?_⟩
            have hpos := hwent.pos
            by_contra hdiff
            exact hlength ⟨hne, by omega⟩

theorem readsData_readHex (length : Nat) : ReadsData fun iss => readHex iss length :=
  fun _ _ _ h => (readHex_eq_ok h).1

theorem readsData_readSkip : ReadsData fun iss => readSkip iss pipeChar := by
  intro iss a iss' h
  dsimp only [readSkip] at h
  split at h
  · cases h
  · cases h
    refine ⟨id, iss.rest.takeWhile fun c => c != pipeChar && c != 0, ?_, fun hmem => ?_⟩
    · exact went_advance (takeWhile_append_dropWhile).symm
    · have hne := @List.mem_takeWhile_imp _ (fun c => c != pipeChar && c != 0) _ _ hmem
      simp at hne

/-! ### Links -/

theorem inherited_readsData : Inherited @ReadsData where
  ok a := by
    intro iss a' iss' h
    cases h
    exact ⟨id, [], Went.refl iss, not_mem_nil⟩
  rejected := nofun
  bind := by
    intro α β read f h hf iss b iss'' heq
    dsimp only at heq
    cases hresult : read iss with
    | error failure =>
      rw [hresult] at heq
      cases heq
    | ok result =>
      obtain ⟨a, iss'⟩ := result
      rw [hresult] at heq
      exact (h iss a iss' hresult).trans (hf a iss' b iss'' heq)
  readUInt32 := readsData_readUInt32
  readInt32 := readsData_readInt32
  checkDelimiter := readsData_checkDelimiter
  readHex := readsData_readHex

/-- The types of links. -/
def linkTypes : List (List UInt8) :=
  ["item", "quest", "trade", "talent", "spell", "enchant", "achievement", "glyph"].map fun s =>
    s.toUTF8.toList

theorem readsData_initializeLink (linkType : List UInt8) :
    ReadsData (initializeLink stores linkType color) :=
  inherited_readsData.initializeLink fun _ =>
    inherited_readsData.initializeTrade readsData_readSkip

/-- A link that is initialized is of one of the types. -/
theorem mem_linkTypes_of_initializeLink {linkType : List UInt8} {link : ChatLink}
    (h : initializeLink stores linkType color iss = .ok (link, iss')) : linkType ∈ linkTypes := by
  by_contra hmem
  simp only [linkTypes, map_cons, map_nil, mem_cons, not_mem_nil, or_false,
    not_or] at hmem
  obtain ⟨hitem, hquest, htrade, htalent, hspell, henchant, hachievement, hglyph⟩ := hmem
  unfold initializeLink at h
  rw [if_neg hitem, if_neg hquest, if_neg htrade, if_neg htalent, if_neg hspell, if_neg henchant,
    if_neg hachievement, if_neg hglyph] at h
  cases h

end TrinityCore.Chat
