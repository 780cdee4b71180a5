import TrinityCore.Chat.ChatLinkEndless

/-!
# Messages that `IsValidMessage` returns on

The extractor does not return where it reads the data of a link for ever, and where it checks a
name with memory that is not of the name: behind the name of a profession, which may be all of the
name, and behind the end of a random suffix, of which each locale has a character.
-/

namespace TrinityCore.Chat

open IStringStream List Relation

variable {stores : LinkStores} {e e' : LinkExtractor} {iss : IStringStream} {text name : List UInt8}

/-! ### Names that are checked out of bounds -/

/-- `name` is what the buffer for names holds at the begin of `rest`: up to a bracket, or all of
its 255 bytes. -/
def Captions (name rest : List UInt8) : Prop :=
  ']'.toUInt8 ∉ name ∧ name.length ≤ 255 ∧
    ∃ c more, rest = name ++ c :: more ∧ (c = ']'.toUInt8 ∨ name.length = 255)

theorem Captions.getline (hgood : iss.good = true) (h : Captions name iss.rest) :
    ∃ iss', iss.getline 256 ']'.toUInt8 = (name, iss') ∧ iss'.eof = false := by
  obtain ⟨hname, hlength, c, more, hrest, hend⟩ := h
  have hstop : ((c :: more).take (255 - name.length)).takeWhile (fun d => d != ']'.toUInt8) = [] := by
    rcases hend with rfl | hfull
    · cases 255 - name.length with
      | zero => rfl
      | succ n => simp
    · rw [hfull]
      rfl
  have hline : (iss.rest.take 255).takeWhile (fun d => d != ']'.toUInt8) = name := by
    rw [hrest, takeWhile_take hname, hstop, append_nil, take_of_length_le hlength]
  have hnext : (iss.advance name.length).rest = c :: more := advance_rest name hrest
  unfold IStringStream.getline
  rw [if_pos hgood]
  dsimp only
  rw [hline, hnext]
  dsimp only
  have heof : iss.eof = false := eof_of_good hgood
  split
  · exact ⟨_, rfl, heof⟩
  · exact ⟨_, rfl, heof⟩

end TrinityCore.Chat
