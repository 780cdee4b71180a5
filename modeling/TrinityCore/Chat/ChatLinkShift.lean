import TrinityCore.Chat.ChatLinkReads
import TrinityCore.Lib.ShiftedStream

/-!
# Readers of links in the middle of a message

No reader of the data of a link looks behind the next pipe, so that what it finds is in the data
alone.
-/

namespace TrinityCore.Chat

open IStringStream

variable {α β : Type} {p : Nat} {more : List UInt8} {iss iss' : IStringStream}

/-- Two results are the same, but for where the streams are and for the text behind a pipe. -/
structure Shifted (p : Nat) (more : List UInt8)
    (result result' : Except LinkFailure (α × IStringStream)) : Prop where
  eq : result' = result.map fun read => (read.1, read.2.shift p more)
  fenced : ∀ a iss, result = .ok (a, iss) → Fenced pipeChar more iss

variable {result result' : Except LinkFailure (α × IStringStream)}

namespace Shifted

theorem error (failure : LinkFailure) : @Shifted α p more (.error failure) (.error failure) :=
  ⟨rfl, nofun⟩

/-- The fence from what a reader of data reads. -/
theorem of_readsData {read : Reader α} (hfenced : Fenced pipeChar more iss)
    (hdata : ReadsData read)
    (heq : result' = (read iss).map fun read => (read.1, read.2.shift p more)) :
    Shifted p more (read iss) result' where
  eq := heq
  fenced := by
    intro a iss' hok
    obtain ⟨taken, hwent, hpipe⟩ := (hdata iss a iss' hok).went
    exact hfenced.of_went hwent hpipe

end Shifted

/-- The reader does not look behind a pipe. -/
def Shifts (read : Reader α) : Prop :=
  ∀ p more iss, Fenced pipeChar more iss → Shifted p more (read iss) (read (iss.shift p more))

theorem shifts_ok (a : α) : Shifts fun iss => .ok (a, iss) := by
  intro p more iss h
  refine ⟨rfl, fun a' iss' heq => ?_⟩
  cases heq
  exact h

/-! ### Numbers and delimiters -/

theorem shifts_readUInt32 : Shifts readUInt32 := by
  intro p more iss h
  apply Shifted.of_readsData h readsData_readUInt32
  unfold readUInt32
  rw [extract_shift pipe_not_numeric h]
  rcases iss.extract 10 toUInt32 with ⟨_ | res, iss'⟩
  · rfl
  · cases heof : iss'.eof <;> simp [heof, Except.map]

theorem shifts_readInt32 : Shifts readInt32 := by
  intro p more iss h
  apply Shifted.of_readsData h readsData_readInt32
  unfold readInt32
  rw [extract_shift pipe_not_numeric h]
  rcases iss.extract 10 toInt32 with ⟨_ | res, iss'⟩
  · rfl
  · cases heof : iss'.eof <;> simp [heof, Except.map]

theorem shifts_checkDelimiter : Shifts fun iss => checkDelimiter iss delimiter := by
  intro p more iss h
  apply Shifted.of_readsData h readsData_checkDelimiter
  unfold checkDelimiter
  dsimp only
  rw [peek_shift h]
  rcases hpeek : iss.peek with ⟨_ | c, iss'⟩
  · rfl
  · obtain ⟨rfl, -, -⟩ := peek_eq_some hpeek
    dsimp only
    rw [ignoreOne_shift h]
    by_cases hc : c = delimiter
    · rw [if_pos hc, if_pos hc]
      rfl
    · rw [if_neg hc, if_neg hc]
      rfl

theorem shifts_readHex (length : Nat) : Shifts fun iss => readHex iss length := by
  intro p more iss h
  apply Shifted.of_readsData h (readsData_readHex length)
  unfold readHex
  dsimp only
  rw [tellg_shift]
  rcases htell : iss.tellg with ⟨_ | pos, iss'⟩
  · rfl
  · obtain ⟨rfl, -, -⟩ := tellg_eq_some htell
    dsimp only [Option.map_some]
    rw [extract_shift pipe_not_numeric h]
    rcases iss'.extract 16 toUInt32 with ⟨_ | res, iss₁⟩
    · rfl
    · dsimp only
      rw [tellg_shift]
      rcases iss₁.tellg with ⟨_ | pos', iss₂⟩
      · rfl
      · dsimp only [Option.map_some]
        rw [Nat.add_sub_add_right, shift_eof]
        by_cases hlength : length ≠ 0 ∧ pos' - pos ≠ length
        · rw [if_pos hlength, if_pos hlength]
          rfl
        · rw [if_neg hlength, if_neg hlength]
          cases heof : iss₂.eof <;> rfl

theorem shifts_readSkip : Shifts fun iss => readSkip iss pipeChar := by
  intro p more iss h
  have hskip : (iss.shift p more).rest.takeWhile (fun c => c != pipeChar && c != 0) =
      iss.rest.takeWhile fun c => c != pipeChar && c != 0 :=
    h.takeWhile_eq (by simp)
  have hwent := went_advance
    (@List.takeWhile_append_dropWhile _ (fun c => c != pipeChar && c != 0) iss.rest).symm
  have hend : Fenced pipeChar more
      (iss.advance (iss.rest.takeWhile fun c => c != pipeChar && c != 0).length) := by
    apply h.of_went hwent
    intro hmem
    have hne := @List.mem_takeWhile_imp _ (fun c => c != pipeChar && c != 0) _ _ hmem
    simp at hne
  unfold readSkip
  dsimp only
  rw [hskip, advance_shift (List.takeWhile_prefix _).length_le]
  rcases @Fenced.rest_shift _ p _ _ hend with ⟨hnil, rfl⟩ | ⟨c, rest, hcons, hcons'⟩
  · rw [if_pos hnil, if_pos (by simp [shift, hnil])]
    exact Shifted.error _
  · rw [if_neg (by simp [hcons]), if_neg (by simp [hcons'])]
    exact shifts_ok _ p more _ hend

/-! ### Links -/

theorem inherited_shifts : Inherited @Shifts where
  ok := shifts_ok
  rejected := fun _ _ _ _ => Shifted.error _
  bind := by
    intro α β read f h hf p more iss hfenced
    have hshifted := h p more iss hfenced
    dsimp only
    rw [hshifted.eq]
    cases hresult : read iss with
    | error failure => exact Shifted.error failure
    | ok result =>
      obtain ⟨a, iss'⟩ := result
      exact hf a p more iss' (hshifted.fenced a iss' hresult)
  readUInt32 := shifts_readUInt32
  readInt32 := shifts_readInt32
  checkDelimiter := shifts_checkDelimiter
  readHex := shifts_readHex

/-- A link is initialized from its data, wherever it stands. -/
theorem shifts_initializeLink {stores : LinkStores} {color : UInt32} (linkType : List UInt8) :
    Shifts (initializeLink stores linkType color) :=
  inherited_shifts.initializeLink fun _ => inherited_shifts.initializeTrade shifts_readSkip

end TrinityCore.Chat
