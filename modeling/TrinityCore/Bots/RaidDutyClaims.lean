import Mathlib.Data.List.SplitOn
import TrinityCore.Lib.Overriding

/-!
# Duty callouts

`BotRaidDutyClaims.h`: which duties a raid-chat message claims or releases. The text and all words
are lists of bytes, classified as in the "C" locale.
-/

namespace TrinityCore.Bots.RaidDuty

/-- A `std::string`. -/
abbrev Word := List UInt8

/-- An ASCII literal. -/
def ascii (text : String) : Word := text.toList.map fun c => UInt8.ofNat c.toNat

/-- `DutyKeywords`. -/
structure DutyKeywords where
  duty : Word
  keywords : List Word
  notFollowedBy : List Word := []
  notPrecededBy : List Word := []

/-- `CalloutIntent`. -/
inductive CalloutIntent where
  | claim
  | release
  deriving DecidableEq, Repr

/-- `Callout`. -/
structure Callout where
  duty : Word := []
  intent : CalloutIntent := .claim
  personal : Bool := false
  deriving DecidableEq, Repr

/-- `std::isalnum`. -/
def isAlnum (c : UInt8) : Bool :=
  decide (48 ≤ c ∧ c ≤ 57) || decide (65 ≤ c ∧ c ≤ 90) || decide (97 ≤ c ∧ c ≤ 122)

/-- `std::tolower`. -/
def toLower (c : UInt8) : UInt8 := if 65 ≤ c ∧ c ≤ 90 then c + 32 else c

/-- Push a word that is not empty. -/
def flush (word : Word) : List Word := if word.isEmpty then [] else [word]

/-- The loop of `NormalizeWords`: the rest of the text, how many of its bytes are skipped, and the
word so far. -/
def normalizeFrom : List UInt8 → Nat → Word → List Word
  | [], _, word => flush word
  | _ :: text, skip + 1, word => normalizeFrom text skip word
  | c :: text, 0, word =>
    if c = 39 then normalizeFrom text 0 word
    else if c = 0xE2 ∧ text.take 2 = [0x80, 0x99] then normalizeFrom text 2 word
    else if isAlnum c then normalizeFrom text 0 (word ++ [toLower c])
    else flush word ++ normalizeFrom text 0 []

/-- `NormalizeWords`. -/
def normalizeWords (text : List UInt8) : List Word := normalizeFrom text 0 []

/-- `IsFirstPerson`. -/
def isFirstPerson (word : Word) : Bool := (["i", "ill", "im", "ive", "id"].map ascii).contains word

/-- `IsBotWord`. -/
def isBotWord (word : Word) : Bool := (["bot", "bots"].map ascii).contains word

/-- `IsNegation`. -/
def isNegation (word : Word) : Bool :=
  (["not", "no", "dont", "cant", "wont", "never", "cannot", "isnt", "stop"].map ascii).contains
    word

/-- `IsReleaseVerb`. -/
def isReleaseVerb (word : Word) : Bool := (["release", "unclaim", "drop"].map ascii).contains word

/-- `IsRequest`. -/
def isRequest (word : Word) : Bool :=
  (["need", "needs", "want", "who", "someone", "anyone", "somebody", "anybody", "please", "pls",
    "plz"].map ascii).contains word

/-- `Mention`. -/
structure Mention where
  index : Nat
  length : Nat
  duty : Word
  deriving DecidableEq, Repr

/-- The words that a keyword covers from here on, if it matches. -/
def keywordLength (words : List Word) (keyword : Word) : Option Nat :=
  match keyword.dropWhile (· ≠ 32) with
  | [] => if words.head? = some keyword then some 1 else none
  | _ :: second =>
    if words.head? = some (keyword.takeWhile (· ≠ 32)) ∧ words[1]? = some second then some 2
    else none

/-- The first entry of the table that has a matching keyword. -/
def matchDuty (table : List DutyKeywords) (words : List Word) : Option (DutyKeywords × Nat) :=
  table.findSome? fun duty =>
    (duty.keywords.findSome? (keywordLength words)).map fun length => (duty, length)

/-- The loop of `FindMentions`: the word before, the index of the next one, and how many are
skipped. -/
def findMentionsFrom (table : List DutyKeywords) : List Word → Option Word → Nat → Nat →
    List Mention
  | [], _, _, _ => []
  | word :: words, _, index, skip + 1 =>
    findMentionsFrom table words (some word) (index + 1) skip
  | word :: words, previous, index, 0 =>
    match matchDuty table (word :: words) with
    | none => findMentionsFrom table words (some word) (index + 1) 0
    | some (duty, length) =>
      let excluded := (word :: words)[length]?.any duty.notFollowedBy.contains ||
        previous.any duty.notPrecededBy.contains
      (if excluded then [] else [⟨index, length, duty.duty⟩]) ++
        findMentionsFrom table words (some word) (index + 1) (length - 1)

/-- `FindMentions`. -/
def findMentions (words : List Word) (table : List DutyKeywords) : List Mention :=
  findMentionsFrom table words none 0 0

/-- The search for the subject, from the first duty word back: `bots`, `firstPerson` and
`negated`. -/
def subject : List Word → Bool → Bool × Bool × Bool
  | [], _ => (false, false, false)
  | word :: before, negationSeen =>
    if isBotWord word then (true, false, false)
    else if isFirstPerson word then (false, true, negationSeen)
    else subject before (negationSeen || isNegation word)

/-- The intent of a clause with these mentions, and whether it is personal. -/
def clauseIntent (words : List Word) (first last : Mention) : Option (CalloutIntent × Bool) :=
  let releaseVerb := (words.take first.index).any isReleaseVerb
  let (bots, firstPerson, negated) := subject (words.take first.index).reverse false
  let after := last.index + last.length
  let suffixClaim := words[after]? = some (ascii "mine") ∨
    (words[after]? = some (ascii "on") ∧ words[after + 1]? = some (ascii "me"))
  if bots || releaseVerb then some (.release, false)
  else if firstPerson && negated then some (.release, true)
  else if firstPerson ∨ suffixClaim then some (.claim, false)
  else none

/-- The last loop of `ParseClause`. -/
def addMention (base : CalloutIntent × Bool) (callouts : List Callout) (mention : Mention) :
    List Callout :=
  if callouts.any fun callout => callout.duty == mention.duty then callouts
  else callouts ++ [⟨mention.duty, base.1, base.2⟩]

/-- `ParseClause`. -/
def parseClause (table : List DutyKeywords) (words : List Word) : List Callout :=
  let mentions := findMentions words table
  match mentions.head?, mentions.getLast? with
  | some first, some last =>
    if words.any isRequest then []
    else match clauseIntent words first last with
      | none => []
      | some base => mentions.foldl (addMention base) []
  | _, _ => []

/-- The `merge` of `ParseCallouts`. -/
def merge (callouts clause : List Callout) : List Callout :=
  clause.foldl (Overriding.put Callout.duty) callouts

/-- One of `,;.!`. -/
def isSeparator (c : UInt8) : Bool := c == 44 || c == 59 || c == 46 || c == 33

/-- The clauses of a text, in order. -/
def clauses (text : List UInt8) : List (List Word) :=
  (text.splitOnP isSeparator).flatMap fun segment =>
    (normalizeWords segment).splitOnP (· == ascii "but")

/-- `ParseCallouts`. -/
def parseCallouts (text : List UInt8) (table : List DutyKeywords) : List Callout :=
  if text.contains 63 then []
  else ((clauses text).map (parseClause table)).foldl merge []

end TrinityCore.Bots.RaidDuty
