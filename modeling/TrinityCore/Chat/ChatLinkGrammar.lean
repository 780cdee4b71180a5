import TrinityCore.Chat.ChatLinkReads

/-!
# Messages and their pieces

Plain text, escaped pipes and links, as a message should consist of, and as `IsValidMessage` lets
them through. What tells the two apart is found by a scan of the pipes of a message.
-/

namespace TrinityCore.Chat

open List

open IStringStream

/-- A piece of a message. -/
inductive Piece where
  | plain (text : List UInt8)
  | escapedPipe
  | link (color linkType data name : List UInt8)

namespace Piece

def bytes : Piece → List UInt8
  | plain text => text
  | escapedPipe => [pipeChar, pipeChar]
  | link color linkType data name =>
    pipeChar :: 'c'.toUInt8 :: (color ++
      pipeChar :: 'H'.toUInt8 :: (linkType ++ delimiter :: (data ++
        pipeChar :: 'h'.toUInt8 :: '['.toUInt8 :: (name ++
          [']'.toUInt8, pipeChar, 'h'.toUInt8, pipeChar, 'r'.toUInt8]))))

def isLink : Piece → Bool
  | link _ _ _ _ => true
  | _ => false

/-- A piece that a message may have: the color of a link is a hexadecimal number, and there is no
pipe in its data and its name. -/
def Complete : Piece → Prop
  | plain text => pipeChar ∉ text
  | escapedPipe => True
  | link color linkType data name =>
    color.length = 8 ∧ (∀ c ∈ color, (digit 16 c).isSome = true) ∧ linkType ∈ linkTypes ∧
      pipeChar ∉ data ∧ pipeChar ∉ name

/-- A piece that `IsValidMessage` reads. -/
def Loose : Piece → Prop
  | plain text => pipeChar ∉ text
  | escapedPipe => True
  | link color linkType data name =>
    color.length = 8 ∧ pipeChar ∉ color ∧ linkType ∈ linkTypes ∧ pipeChar ∉ data ∧
      ']'.toUInt8 ∉ name

end Piece

/-- Every pipe is escaped. -/
def paired : List UInt8 → Bool
  | [] => true
  | [c] => c != pipeChar
  | c :: d :: rest =>
    if c = pipeChar then d == pipeChar && paired rest else paired (d :: rest)

/-- A message of complete pieces, whose pipes are paired without its links. -/
def OnlyCompleteLinks (msg : List UInt8) : Prop :=
  ∃ pieces : List Piece, (∀ piece ∈ pieces, piece.Complete) ∧ msg = pieces.flatMap Piece.bytes ∧
    paired ((pieces.filter fun piece => !piece.isLink).flatMap Piece.bytes) = true

/-! ### The scan -/

/-- Eight hexadecimal digits behind `|c`, and no pipe between the brackets behind `|h`. -/
def tidyCommand (commandChar : UInt8) (rest : List UInt8) : Bool :=
  if commandChar = 'c'.toUInt8 then
    rest.length ≥ 8 && (rest.take 8).all fun c => (digit 16 c).isSome
  else if commandChar = 'h'.toUInt8 ∧ rest.head? = some '['.toUInt8 then
    !(rest.tail.takeWhile fun c => c != ']'.toUInt8).contains pipeChar
  else true

/-- Every pipe is followed by a byte, its command, and what is behind that is tidy. -/
def tidy : List UInt8 → Bool
  | [] => true
  | [c] => c != pipeChar
  | c :: d :: rest =>
    if c = pipeChar then tidyCommand d rest && tidy rest else tidy (d :: rest)

variable {text rest : List UInt8} {c : UInt8}

@[simp] theorem tidy_pipe (commandChar : UInt8) (rest : List UInt8) :
    tidy (pipeChar :: commandChar :: rest) = (tidyCommand commandChar rest && tidy rest) := by
  rw [tidy, if_pos rfl]

theorem tidy_cons (hc : c ≠ pipeChar) (rest : List UInt8) : tidy (c :: rest) = tidy rest := by
  cases rest with
  | nil => exact bne_iff_ne.mpr hc
  | cons d rest => rw [tidy, if_neg hc]

theorem tidy_append (htext : pipeChar ∉ text) (rest : List UInt8) :
    tidy (text ++ rest) = tidy rest := by
  induction text with
  | nil => rfl
  | cons c text ih =>
    obtain ⟨hc, htext⟩ := not_or.mp (mem_cons.not.mp htext)
    rw [cons_append, tidy_cons (Ne.symm hc), ih htext]

theorem paired_append (htext : pipeChar ∉ text) (rest : List UInt8) :
    paired (text ++ rest) = paired rest := by
  induction text with
  | nil => rfl
  | cons c text ih =>
    obtain ⟨hc, htext⟩ := not_or.mp (mem_cons.not.mp htext)
    rw [← ih htext, cons_append]
    cases text ++ rest with
    | nil => exact bne_iff_ne.mpr (Ne.symm hc)
    | cons d rest => rw [paired, if_neg (Ne.symm hc)]

variable {color : List UInt8} {pieces : List Piece}

theorem tidyCommand_color (hlength : color.length = 8) (rest : List UInt8) :
    tidyCommand 'c'.toUInt8 (color ++ rest) = true ↔
      ∀ c ∈ color, (digit 16 c).isSome = true := by
  unfold tidyCommand
  rw [if_pos rfl, ← hlength, take_left, Bool.and_eq_true, all_eq_true, and_iff_right_iff_imp]
  intro _
  rw [length_append]
  exact decide_eq_true (Nat.le_add_right _ _)

theorem tidyCommand_name (name rest : List UInt8) :
    tidyCommand 'h'.toUInt8 ('['.toUInt8 :: (name ++ ']'.toUInt8 :: rest)) = true ↔
      pipeChar ∉ name.takeWhile fun c => c != ']'.toUInt8 := by
  unfold tidyCommand
  rw [if_neg (by decide), if_pos ⟨rfl, rfl⟩, tail_cons, takeWhile_append]
  have hend : (']'.toUInt8 :: rest).takeWhile (fun c => c != ']'.toUInt8) = [] := by simp
  split
  · next hall =>
    have hname : (name.takeWhile fun c => c != ']'.toUInt8) = name :=
      (List.takeWhile_prefix _).eq_of_length hall
    rw [hend, append_nil, hname]
    simp
  · simp

theorem pipe_not_mem_linkType : ∀ linkType ∈ linkTypes, pipeChar ∉ linkType := by
  decide +kernel

/-- The scan of a link: its color, the text behind `|h`, and what is from its name on. -/
theorem tidy_link {linkType data : List UInt8} (hcolor : pipeChar ∉ color)
    (htype : linkType ∈ linkTypes) (hdata : pipeChar ∉ data) (name rest : List UInt8) :
    ∃ behind closing, tidy ((Piece.link color linkType data name).bytes ++ rest) =
        (tidyCommand 'c'.toUInt8 (color ++ behind) &&
          (tidyCommand 'h'.toUInt8 ('['.toUInt8 :: (name ++ ']'.toUInt8 :: closing)) &&
            tidy (name ++ ']'.toUInt8 :: closing))) ∧
      tidy (']'.toUInt8 :: closing) = tidy rest := by
  refine ⟨pipeChar :: 'H'.toUInt8 :: (linkType ++ delimiter :: (data ++
    pipeChar :: 'h'.toUInt8 :: '['.toUInt8 :: (name ++
      ']'.toUInt8 :: pipeChar :: 'h'.toUInt8 :: pipeChar :: 'r'.toUInt8 :: rest))),
    pipeChar :: 'h'.toUInt8 :: pipeChar :: 'r'.toUInt8 :: rest, ?_, ?_⟩
  · have hbytes : (Piece.link color linkType data name).bytes ++ rest =
        pipeChar :: 'c'.toUInt8 :: (color ++
          pipeChar :: 'H'.toUInt8 :: (linkType ++ delimiter :: (data ++
            pipeChar :: 'h'.toUInt8 :: '['.toUInt8 :: (name ++
              ']'.toUInt8 :: pipeChar :: 'h'.toUInt8 :: pipeChar :: 'r'.toUInt8 :: rest)))) := by
      simp [Piece.bytes]
    have hH : ∀ rest, tidyCommand 'H'.toUInt8 rest = true := fun _ => rfl
    rw [hbytes, tidy_pipe, tidy_append hcolor, tidy_pipe, hH, Bool.true_and,
      tidy_append (pipe_not_mem_linkType linkType htype), tidy_cons (by decide),
      tidy_append hdata, tidy_pipe, tidy_cons (by decide)]
  · have hh : tidyCommand 'h'.toUInt8 (pipeChar :: 'r'.toUInt8 :: rest) = true := rfl
    have hr : tidyCommand 'r'.toUInt8 rest = true := rfl
    rw [tidy_cons (by decide), tidy_pipe, hh, tidy_pipe, hr, Bool.true_and, Bool.true_and]

theorem pipe_not_mem_color (hcolor : ∀ c ∈ color, (digit 16 c).isSome = true) : pipeChar ∉ color :=
  fun hmem => absurd (hcolor pipeChar hmem) (by decide)

/-- A complete piece is tidy. -/
theorem Piece.Complete.tidy_append {piece : Piece} (h : piece.Complete) (rest : List UInt8) :
    tidy (piece.bytes ++ rest) = tidy rest := by
  cases piece with
  | plain text => exact Chat.tidy_append h rest
  | escapedPipe => rfl
  | link color linkType data name =>
    obtain ⟨hlength, hcolor, htype, hdata, hname⟩ := h
    obtain ⟨behind, closing, hscan, hclosing⟩ :=
      tidy_link (pipe_not_mem_color hcolor) htype hdata name rest
    have hdigits := (tidyCommand_color hlength behind).mpr hcolor
    have hbrackets := (tidyCommand_name name closing).mpr fun hmem =>
      hname ((List.takeWhile_prefix _).subset hmem)
    rw [hscan, hdigits, hbrackets, Chat.tidy_append hname, hclosing, Bool.true_and, Bool.true_and]

/-- A piece that was read is complete, where the message is tidy. -/
theorem Piece.Loose.complete {piece : Piece} (h : piece.Loose)
    (htidy : tidy (piece.bytes ++ rest) = true) : piece.Complete := by
  cases piece with
  | plain text => exact h
  | escapedPipe => trivial
  | link color linkType data name =>
    obtain ⟨hlength, hcolor, htype, hdata, hname⟩ := h
    obtain ⟨behind, closing, hscan, -⟩ := tidy_link hcolor htype hdata name rest
    rw [hscan, Bool.and_eq_true, Bool.and_eq_true] at htidy
    obtain ⟨hdigits, hbrackets, -⟩ := htidy
    have hwhole : (name.takeWhile fun c => c != ']'.toUInt8) = name :=
      takeWhile_eq_self_iff.mpr fun c hc => bne_iff_ne.mpr fun heq => hname (heq ▸ hc)
    have hpipe := (tidyCommand_name name closing).mp hbrackets
    rw [hwhole] at hpipe
    exact ⟨hlength, (tidyCommand_color hlength behind).mp hdigits, htype, hdata, hpipe⟩

/-! ### Messages -/

theorem tidy_of_complete (h : ∀ piece ∈ pieces, piece.Complete) :
    tidy (pieces.flatMap Piece.bytes) = true := by
  induction pieces with
  | nil => rfl
  | cons piece pieces ih =>
    obtain ⟨hpiece, hpieces⟩ := forall_mem_cons.mp h
    rw [flatMap_cons, hpiece.tidy_append]
    exact ih hpieces

/-- Pieces that were read are complete in a tidy message, and no pipe is behind them. -/
theorem complete_of_tidy (h : ∀ piece ∈ pieces, piece.Loose)
    (htidy : tidy (pieces.flatMap Piece.bytes ++ rest) = true) :
    (∀ piece ∈ pieces, piece.Complete) ∧ tidy rest = true := by
  induction pieces with
  | nil => exact ⟨nofun, htidy⟩
  | cons piece pieces ih =>
    obtain ⟨hpiece, hpieces⟩ := forall_mem_cons.mp h
    rw [flatMap_cons, append_assoc] at htidy
    have hcomplete := hpiece.complete htidy
    rw [hcomplete.tidy_append] at htidy
    obtain ⟨hrest, hend⟩ := ih hpieces htidy
    exact ⟨forall_mem_cons.mpr ⟨hcomplete, hrest⟩, hend⟩

/-- Without its links, the pipes of a message of complete pieces are paired. -/
theorem paired_of_complete (h : ∀ piece ∈ pieces, piece.Complete) :
    paired ((pieces.filter fun piece => !piece.isLink).flatMap Piece.bytes) = true := by
  induction pieces with
  | nil => rfl
  | cons piece pieces ih =>
    obtain ⟨hpiece, hpieces⟩ := forall_mem_cons.mp h
    cases piece with
    | plain text => exact (paired_append hpiece _).trans (ih hpieces)
    | escapedPipe => exact ih hpieces
    | link color linkType data name => exact ih hpieces

end TrinityCore.Chat
