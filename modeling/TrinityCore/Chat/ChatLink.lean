import TrinityCore.Lib.IStringStream

/-!
# Links in chat messages

`ChatLink.cpp`: the reader of messages that players send, over string streams, with its links for
items, quests, spells, achievements, professions, talents, enchantments and glyphs. The stores that
links are looked up in are parameters. Texts for the log and the bounds of links are left out.
-/

namespace TrinityCore.Chat

/-- How a reader returns without success: it returns false, it never returns, or it moves memory
that is not its own. -/
inductive LinkFailure where
  | rejected
  | endless
  | undefined
  deriving DecidableEq, Repr

/-- `ItemTemplate`, with its name in a locale. -/
structure ItemTemplate where
  quality : Fin 8
  name : Fin 12 → List UInt8

/-- `Quest`, with its title and the titles of its `QuestLocale`. -/
structure Quest where
  title : List UInt8
  localeTitles : List (List UInt8) := []

/-- `SpellInfo`. -/
structure LinkedSpell where
  id : UInt32
  spellName : List UInt8
  isTradeskill : Bool := false

/-- The stores that links are looked up in. -/
structure LinkStores where
  getItemTemplate : UInt32 → Option ItemTemplate
  /-- The `Name` of an `ItemRandomPropertiesEntry`. -/
  itemRandomProperties : UInt32 → Option (List UInt8)
  /-- The `Name` of an `ItemRandomSuffixEntry`. -/
  itemRandomSuffix : UInt32 → Option (List UInt8)
  getQuestTemplate : UInt32 → Option Quest
  getSpellInfo : UInt32 → Option LinkedSpell
  /-- The `SkillLine` of the first ability in the bounds of a spell. -/
  skillLineAbility : UInt32 → Option UInt32
  /-- The `DisplayName` of a skill line. -/
  skillLine : UInt32 → Option (List UInt8)
  /-- The `Title` of an achievement. -/
  getAchievement : UInt32 → Option (List UInt8)
  /-- The first `SpellRank` of a talent. -/
  talent : UInt32 → Option UInt32
  /-- The `SpellID` of a glyph. -/
  glyphProperties : UInt32 → Option UInt32

/-! ### Reading -/

def delimiter : UInt8 := ':'.toUInt8

def pipeChar : UInt8 := 0x7c

/-- `ReadUInt32`. -/
def readUInt32 (iss : IStringStream) : Except LinkFailure (UInt32 × IStringStream) :=
  match iss.extract 10 IStringStream.toUInt32 with
  | (some res, iss) => if iss.eof then .error .rejected else .ok (res, iss)
  | (none, _) => .error .rejected

/-- `ReadInt32`. -/
def readInt32 (iss : IStringStream) : Except LinkFailure (Int × IStringStream) :=
  match iss.extract 10 IStringStream.toInt32 with
  | (some res, iss) => if iss.eof then .error .rejected else .ok (res, iss)
  | (none, _) => .error .rejected

/-- `ReadSkip`; at the end of the text its loop goes on for ever. -/
def readSkip (iss : IStringStream) (term : UInt8) :
    Except LinkFailure (List UInt8 × IStringStream) :=
  let res := iss.rest.takeWhile fun c => c != term && c != 0
  let iss := iss.advance res.length
  if iss.rest = [] then .error .endless else .ok (res, iss)

/-- `CheckDelimiter`. -/
def checkDelimiter (iss : IStringStream) (delim : UInt8) :
    Except LinkFailure (Unit × IStringStream) :=
  match iss.peek with
  | (some c, iss) => if c = delim then .ok ((), iss.ignoreOne) else .error .rejected
  | (none, _) => .error .rejected

/-- `ReadHex`. -/
def readHex (iss : IStringStream) (length : Nat) : Except LinkFailure (UInt32 × IStringStream) :=
  match iss.tellg with
  | (none, _) => .error .rejected
  | (some pos, iss) =>
    match iss.extract 16 IStringStream.toUInt32 with
    | (none, _) => .error .rejected
    | (some res, iss) =>
      match iss.tellg with
      | (none, _) => .error .rejected
      | (some pos', iss) =>
        if length ≠ 0 ∧ pos' - pos ≠ length then .error .rejected
        else if iss.eof then .error .rejected
        else .ok (res, iss)

/-! ### Links -/

/-- The `Name` of the random suffix, or property, of an item. -/
abbrev SuffixStrings := Option (List UInt8)

/-- A link that was initialized, with what its name is checked against. -/
inductive ChatLink where
  | item (item : ItemTemplate) (suffixStrings : SuffixStrings)
  | quest (quest : Quest)
  | spell (spell : LinkedSpell)
  | achievement (title : List UInt8)

def itemQualityColors : Fin 8 → UInt32
  | 0 => 0xff9d9d9d
  | 1 => 0xffffffff
  | 2 => 0xff1eff00
  | 3 => 0xff0070dd
  | 4 => 0xffa335ee
  | 5 => 0xffff8000
  | 6 => 0xffe6cc80
  | 7 => 0xffe6cc80

def chatLinkColorTrade : UInt32 := 0xffffd000
def chatLinkColorTalent : UInt32 := 0xff4e96f7
def chatLinkColorSpell : UInt32 := 0xff71d5ff
def chatLinkColorEnchant : UInt32 := 0xffffd000
def chatLinkColorAchievement : UInt32 := 0xffffff00
def chatLinkColorGlyph : UInt32 := 0xff66bbff

/-- `STRONG_MAX_LEVEL`. -/
def strongMaxLevel : Int := 255

variable (stores : LinkStores)

/-- `found`, or the link is rejected. -/
def lookup {α : Type} (found : Option α) : Except LinkFailure α :=
  match found with
  | none => .error .rejected
  | some a => .ok a

/-- A number behind a delimiter. -/
def readProperty (iss : IStringStream) : Except LinkFailure (Int × IStringStream) := do
  let (_, iss) ← checkDelimiter iss delimiter
  readInt32 iss

/-- The properties of an item from `index` on, `count` of them left: the strings of its random
property, or suffix. -/
def readProperties : Nat → Nat → IStringStream → SuffixStrings →
    Except LinkFailure (SuffixStrings × IStringStream)
  | 0, _, iss, suffixStrings => .ok (suffixStrings, iss)
  | count + 1, index, iss, suffixStrings => do
    let (id, iss) ← readProperty iss
    if id ≠ 0 ∧ index = 5 then
      if 0 < id then
        let property ← lookup (stores.itemRandomProperties (UInt32.ofInt id))
        readProperties count (index + 1) iss (some property)
      else
        let suffix ← lookup (stores.itemRandomSuffix (UInt32.ofInt (-id)))
        readProperties count (index + 1) iss (some suffix)
    else readProperties count (index + 1) iss suffixStrings

/-- `ItemChatLink::Initialize`. -/
def initializeItem (color : UInt32) (iss : IStringStream) :
    Except LinkFailure (ChatLink × IStringStream) := do
  let (itemEntry, iss) ← readUInt32 iss
  let item ← lookup (stores.getItemTemplate itemEntry)
  if color ≠ itemQualityColors item.quality then .error .rejected
  else
    let (suffixStrings, iss) ← readProperties stores 8 0 iss none
    .ok (.item item suffixStrings, iss)

/-- `QuestChatLink::Initialize`. -/
def initializeQuest (iss : IStringStream) : Except LinkFailure (ChatLink × IStringStream) := do
  let (questId, iss) ← readUInt32 iss
  let quest ← lookup (stores.getQuestTemplate questId)
  let (questLevel, iss) ← readProperty iss
  if strongMaxLevel ≤ questLevel then .error .rejected else .ok (.quest quest, iss)

/-- `SpellChatLink::Initialize`. -/
def initializeSpell (color : UInt32) (iss : IStringStream) :
    Except LinkFailure (ChatLink × IStringStream) := do
  if color ≠ chatLinkColorSpell then .error .rejected
  else
    let (spellId, iss) ← readUInt32 iss
    let spell ← lookup (stores.getSpellInfo spellId)
    .ok (.spell spell, iss)

/-- The progress of an achievement, that is skipped. -/
def skipProgress : Nat → IStringStream → Except LinkFailure (Unit × IStringStream)
  | 0, iss => .ok ((), iss)
  | count + 1, iss => do
    let (_, iss) ← checkDelimiter iss delimiter
    let (_, iss) ← readUInt32 iss
    skipProgress count iss

/-- `AchievementChatLink::Initialize`. -/
def initializeAchievement (color : UInt32) (iss : IStringStream) :
    Except LinkFailure (ChatLink × IStringStream) := do
  if color ≠ chatLinkColorAchievement then .error .rejected
  else
    let (achievementId, iss) ← readUInt32 iss
    let title ← lookup (stores.getAchievement achievementId)
    let (_, iss) ← checkDelimiter iss delimiter
    let (_, iss) ← readHex iss 0
    let (_, iss) ← skipProgress 8 iss
    .ok (.achievement title, iss)

/-- `TradeChatLink::Initialize`. -/
def initializeTrade (color : UInt32) (iss : IStringStream) :
    Except LinkFailure (ChatLink × IStringStream) := do
  if color ≠ chatLinkColorTrade then .error .rejected
  else
    let (spellId, iss) ← readUInt32 iss
    let spell ← lookup (stores.getSpellInfo spellId)
    let (_, iss) ← readProperty iss
    let (_, iss) ← readProperty iss
    let (_, iss) ← checkDelimiter iss delimiter
    let (_, iss) ← readHex iss 0
    let (_, iss) ← readSkip iss pipeChar
    .ok (.spell spell, iss)

/-- `TalentChatLink::Initialize`. -/
def initializeTalent (color : UInt32) (iss : IStringStream) :
    Except LinkFailure (ChatLink × IStringStream) := do
  if color ≠ chatLinkColorTalent then .error .rejected
  else
    let (talentId, iss) ← readUInt32 iss
    let spellRank ← lookup (stores.talent talentId)
    let spell ← lookup (stores.getSpellInfo spellRank)
    let (_, iss) ← readProperty iss
    .ok (.spell spell, iss)

/-- `EnchantmentChatLink::Initialize`. -/
def initializeEnchant (color : UInt32) (iss : IStringStream) :
    Except LinkFailure (ChatLink × IStringStream) := do
  if color ≠ chatLinkColorEnchant then .error .rejected
  else
    let (spellId, iss) ← readUInt32 iss
    let spell ← lookup (stores.getSpellInfo spellId)
    .ok (.spell spell, iss)

/-- `GlyphChatLink::Initialize`. -/
def initializeGlyph (color : UInt32) (iss : IStringStream) :
    Except LinkFailure (ChatLink × IStringStream) := do
  if color ≠ chatLinkColorGlyph then .error .rejected
  else
    let (_, iss) ← readUInt32 iss
    let (_, iss) ← checkDelimiter iss delimiter
    let (glyphId, iss) ← readUInt32 iss
    let spellId ← lookup (stores.glyphProperties glyphId)
    let spell ← lookup (stores.getSpellInfo spellId)
    .ok (.spell spell, iss)

/-- The link for a type, initialized. -/
def initializeLink (linkType : List UInt8) (color : UInt32) (iss : IStringStream) :
    Except LinkFailure (ChatLink × IStringStream) :=
  if linkType = "item".toUTF8.toList then initializeItem stores color iss
  else if linkType = "quest".toUTF8.toList then initializeQuest stores iss
  else if linkType = "trade".toUTF8.toList then initializeTrade stores color iss
  else if linkType = "talent".toUTF8.toList then initializeTalent stores color iss
  else if linkType = "spell".toUTF8.toList then initializeSpell stores color iss
  else if linkType = "enchant".toUTF8.toList then initializeEnchant stores color iss
  else if linkType = "achievement".toUTF8.toList then initializeAchievement stores color iss
  else if linkType = "glyph".toUTF8.toList then initializeGlyph stores color iss
  else .error .rejected

/-! ### Names -/

/-- `text[index]`, for a text of C: the end of the text is a byte of it, what is behind is not. -/
def charAt (text : List UInt8) (index : Nat) : Except LinkFailure UInt8 :=
  if index < text.length then .ok (text.getD index 0)
  else if index = text.length then .ok 0
  else .error .undefined

/-- `ItemChatLink::FormatName`: `suffixStrings` is one name, of which it takes one character. -/
def formatName (template : ItemTemplate) (suffixStrings : SuffixStrings) (index : Fin 12) :
    Except LinkFailure (List UInt8) :=
  match suffixStrings with
  | none => .ok (template.name index)
  | some strings => do
    let c ← charAt strings index
    .ok (template.name index ++ [' '.toUInt8, c])

/-- `ItemChatLink::ValidateName`, over the locales that are left. -/
def findName (template : ItemTemplate) (suffixStrings : SuffixStrings) (buffer : List UInt8) :
    List (Fin 12) → Except LinkFailure Unit
  | [] => .error .rejected
  | index :: locales => do
    let name ← formatName template suffixStrings index
    if name = buffer then .ok () else findName template suffixStrings buffer locales

/-- `SpellChatLink::ValidateName`: the name without the name of its profession and two more bytes,
where it begins with that. -/
def spellBuffer (spell : LinkedSpell) (buffer : List UInt8) :
    Except LinkFailure (List UInt8) :=
  if spell.isTradeskill then do
    let skillInfo ← lookup (stores.skillLineAbility spell.id)
    let displayName ← lookup (stores.skillLine skillInfo)
    if 0 < displayName.length ∧ displayName <+: buffer then
      -- `strlen(buffer) - skillLineNameLength - 2` is a number of 32 bits.
      if buffer.length = displayName.length then .error .undefined
      else if buffer.length = displayName.length + 1 then .ok buffer
      else .ok (buffer.drop (displayName.length + 2))
    else .ok buffer
  else .ok buffer

/-- `ValidateName`. -/
def ChatLink.validateName (link : ChatLink) (buffer : List UInt8) : Except LinkFailure Unit :=
  match link with
  | .item template suffixStrings => findName template suffixStrings buffer (List.finRange 12)
  | .quest q =>
    if q.title = buffer ∨ buffer ∈ q.localeTitles then .ok () else .error .rejected
  | .spell info => do
    let buffer ← spellBuffer stores info buffer
    if info.spellName ≠ [] ∧ info.spellName = buffer then .ok () else .error .rejected
  | .achievement title =>
    if title ≠ [] ∧ title = buffer then .ok () else .error .rejected

/-! ### Messages -/

/-- A text of C, without its end. -/
abbrev CString := { bytes : List UInt8 // 0 ∉ bytes }

/-- `LinkExtractor`, with the locals of `IsValidMessage`. -/
structure LinkExtractor where
  iss : IStringStream
  /-- `validSequenceIterator - validSequence`. -/
  iterator : Fin 5 := 0
  color : UInt32 := 0
  link : Option ChatLink := none

def validSequence : Fin 5 → UInt8
  | 0 => 'c'.toUInt8
  | 1 => 'H'.toUInt8
  | 2 => 'h'.toUInt8
  | 3 => 'h'.toUInt8
  | 4 => 'r'.toUInt8

/-- Up to the next pipe, outside of a sequence; in one it has to be the next byte. -/
def seekPipe (e : LinkExtractor) : Except LinkFailure LinkExtractor :=
  if e.iterator = 0 then
    let (_, iss) := (e.iss.ignore 255 pipeChar).tellg
    .ok { e with iss, link := none }
  else
    match e.iss.get with
    | (some c, iss) => if c = pipeChar then .ok { e with iss } else .error .rejected
    | (none, _) => .error .rejected

/-- The iterator after a command. -/
def nextIterator (iterator : Fin 5) (commandChar : UInt8) : Except LinkFailure (Fin 5) :=
  if commandChar ≠ pipeChar then
    if commandChar = validSequence iterator then
      if iterator = 4 then .ok 0 else .ok (iterator + 1)
    else .error .rejected
  else if iterator ≠ 0 then .error .rejected
  else .ok iterator

/-- The text of a link, that is behind the first `|h`. -/
def readName (e : LinkExtractor) : Except LinkFailure LinkExtractor :=
  match e.iss.get with
  | (none, _) => .error .rejected
  | (some c, iss) =>
    if c ≠ '['.toUInt8 then .error .rejected
    else
      let (buffer, iss) := iss.getline 256 ']'.toUInt8
      if iss.eof then .error .rejected
      else
        match e.link with
        | none => .error .rejected
        | some link => do
          link.validateName stores buffer
          .ok { e with iss }

/-- What follows a command. -/
def readPayload (commandChar : UInt8) (e : LinkExtractor) : Except LinkFailure LinkExtractor :=
  if commandChar = 'c'.toUInt8 then do
    let (color, iss) ← readHex e.iss 8
    .ok { e with iss, color }
  else if commandChar = 'H'.toUInt8 then
    let (buffer, iss) := e.iss.getline 256 delimiter
    if iss.eof then .error .rejected
    else do
      let (link, iss) ← initializeLink stores buffer e.color iss
      .ok { e with iss, link := some link }
  else if commandChar = 'h'.toUInt8 then
    if validSequence e.iterator = 'h'.toUInt8 then readName stores e else .ok e
  else if commandChar = 'r'.toUInt8 ∨ commandChar = pipeChar then .ok e
  else .error .rejected

/-- One turn of the loop of `IsValidMessage`. -/
def turn (e : LinkExtractor) : Except LinkFailure (ForInStep LinkExtractor) :=
  if e.iss.eof then .ok (.done e)
  else do
    let e ← seekPipe e
    let (next, iss) := e.iss.peek
    if next = some 0 then .error .rejected
    else if iss.eof then .ok (.done { e with iss })
    else
      match iss.get with
      | (none, _) => .error .undefined
      | (some commandChar, iss) =>
        let iterator ← nextIterator e.iterator commandChar
        let e ← readPayload stores commandChar { e with iss, iterator }
        .ok (.yield e)

/-- The loop of `IsValidMessage` and what it checks at its end, with so many turns. -/
def turns : Nat → LinkExtractor → Except LinkFailure Unit
  | 0, _ => .error .endless
  | fuel + 1, e => do
    match ← turn stores e with
    | .done e => if e.iterator = 0 then .ok () else .error .rejected
    | .yield e => turns fuel e

/-- `IsValidMessage`: each turn but the last reads at least one byte. -/
def isValidMessage (msg : CString) : Except LinkFailure Unit :=
  turns stores (msg.val.length + 1) { iss := { rest := msg.val } }

end TrinityCore.Chat
