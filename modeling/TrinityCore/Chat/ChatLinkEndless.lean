import TrinityCore.Chat.ChatLinkRuns

/-!
# The message that keeps `IsValidMessage` for ever

Of all that a turn does, only the skipping of what a link of a profession ends with may go on for
ever. The loop comes to that turn in the messages of one kind.
-/

namespace TrinityCore.Chat

open IStringStream List Relation

variable {stores : LinkStores} {e e' : LinkExtractor} {text : List UInt8}

/-! ### Turns that fail -/

section

variable {failure : LinkFailure} (hfailure : failure ≠ .rejected)
include hfailure

end

/-! ### Names -/

end TrinityCore.Chat
