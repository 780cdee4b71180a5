import Mathlib.Logic.Relation
import TrinityCore.Chat.ChatLinkShift
import TrinityCore.Chat.ChatLinkSound

/-!
# Messages that are never read to their end

`ReadSkip` waits for a byte that a stream does not give at its end. A message keeps the extractor
for ever just when it ends in a link of a profession that no pipe closes.
-/

namespace TrinityCore.Chat

open IStringStream Relation

variable {stores : LinkStores} {e e' : LinkExtractor} {iss iss' : IStringStream}

/-! ### Links -/

/-- The result of a reader that does not fail in this way. -/
def Avoids {α : Type} (failure : LinkFailure) (result : Except LinkFailure α) : Prop :=
  result ≠ .error failure

section

variable {failure : LinkFailure}

namespace Avoids

variable {α β : Type}

theorem ok (a : α) : Avoids failure (.ok a) := nofun

theorem bind {result : Except LinkFailure α} {f : α → Except LinkFailure β}
    (h : Avoids failure result) (hf : ∀ a, Avoids failure (f a)) :
    Avoids failure (result >>= f) := by
  cases hresult : result with
  | error failure =>
    rw [hresult] at h
    intro heq
    exact h (by rw [Except.error.inj heq])
  | ok a => exact hf a

theorem ite {c : Prop} [Decidable c] {r r' : Except LinkFailure α} (h : Avoids failure r)
    (h' : Avoids failure r') : Avoids failure (if c then r else r') := by
  split
  · exact h
  · exact h'

end Avoids

variable (hfailure : failure ≠ .rejected)
include hfailure

theorem Avoids.rejected {α : Type} :
    Avoids failure (.error .rejected : Except LinkFailure α) :=
  fun heq => hfailure (Except.error.inj heq).symm

theorem Avoids.lookup {α : Type} (found : Option α) : Avoids failure (Chat.lookup found) := by
  cases found with
  | none => exact Avoids.rejected hfailure
  | some a => exact Avoids.ok a

end

variable {color : UInt32}

/-- A stream is its text, at a later position. -/
theorem eq_shift (hgood : iss.good = true) {text more : List UInt8} (hrest : iss.rest = text ++ more) :
    iss = ({ rest := text } : IStringStream).shift iss.pos more := by
  obtain ⟨rest, pos, eof, fail⟩ := iss
  cases eof <;> cases fail <;> simp_all [shift, good]

end TrinityCore.Chat
