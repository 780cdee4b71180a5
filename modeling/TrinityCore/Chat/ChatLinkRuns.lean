import TrinityCore.Chat.ChatLinkTermination

/-!
# Texts and the states behind them

The text of a message that the extractor reads up to a state of its loop: whole links and escaped
pipes, and a link up to the command that the iterator says. A run of the loop comes to a state just
behind such a text.
-/

namespace TrinityCore.Chat

open List

open IStringStream Relation

variable {stores : LinkStores} {e e' : LinkExtractor} {msg text : List UInt8}

/-! ### Texts and states -/

/-- A reader finds `a` in the text before a pipe, and reads all of it. -/
def Finds {α : Type} (read : IStringStream → Except LinkFailure (α × IStringStream))
    (text : List UInt8) (a : α) : Prop :=
  ∃ iss, read { rest := text ++ [pipeChar] } = .ok (a, iss) ∧ iss.rest = [pipeChar]

/-- The text that the extractor has read in a state: its iterator, color and link. -/
inductive ReadTo (stores : LinkStores) : List UInt8 → Fin 5 → UInt32 → Option ChatLink → Prop
  | start : ReadTo stores [] 0 0 none
  | escapedPipe {text skipped : List UInt8} {color : UInt32} {link : Option ChatLink}
      (htext : ReadTo stores text 0 color link) (hskip : Skips 255 pipeChar skipped) :
      ReadTo stores (text ++ (skipped ++ [pipeChar])) 0 color none
  | color {text skipped digits : List UInt8} {color color' : UInt32} {link : Option ChatLink}
      (htext : ReadTo stores text 0 color link) (hskip : Skips 255 pipeChar skipped)
      (hcolor : Finds (fun iss => readHex iss 8) digits color') :
      ReadTo stores (text ++ (skipped ++ 'c'.toUInt8 :: digits)) 1 color' none
  | data {text linkType data : List UInt8} {color : UInt32} {link : Option ChatLink}
      {link' : ChatLink} (htext : ReadTo stores text 1 color link)
      (hdata : Finds (initializeLink stores linkType color) data link') :
      ReadTo stores (text ++ pipeChar :: 'H'.toUInt8 :: (linkType ++ delimiter :: data)) 2 color
        (some link')
  | name {text name : List UInt8} {color : UInt32} {link : ChatLink}
      (htext : ReadTo stores text 2 color (some link)) (hname : ']'.toUInt8 ∉ name)
      (hlength : name.length ≤ 255) (hvalid : link.validateName stores name = .ok ()) :
      ReadTo stores (text ++ pipeChar :: 'h'.toUInt8 :: '['.toUInt8 :: (name ++ [']'.toUInt8])) 3
        color (some link)
  | closed {text : List UInt8} {color : UInt32} {link : Option ChatLink}
      (htext : ReadTo stores text 3 color link) :
      ReadTo stores (text ++ [pipeChar, 'h'.toUInt8]) 4 color link
  | finish {text : List UInt8} {color : UInt32} {link : Option ChatLink}
      (htext : ReadTo stores text 4 color link) :
      ReadTo stores (text ++ [pipeChar, 'r'.toUInt8]) 0 color link

/-- What a reader finds in a text, it finds in the middle of a message. -/
theorem finds_iff {α : Type} {read : IStringStream → Except LinkFailure (α × IStringStream)}
    (hshift : Shifts read) {iss : IStringStream} {more : List UInt8} (hgood : iss.good = true)
    (hrest : iss.rest = text ++ pipeChar :: more) (a : α) :
    Finds read text a ↔ ∃ iss', read iss = .ok (a, iss') ∧ iss'.rest = pipeChar :: more := by
  have heq : iss = ({ rest := text ++ [pipeChar] } : IStringStream).shift iss.pos more := by
    apply eq_shift hgood
    rw [hrest, append_assoc]
    rfl
  have hread := hshift iss.pos more { rest := text ++ [pipeChar] }
    (.inl (mem_append_right _ mem_cons_self))
  rw [← heq] at hread
  have hresult := hread.eq
  unfold Finds
  cases hfound : read { rest := text ++ [pipeChar] } with
  | error failure =>
    rw [hfound] at hresult
    rw [hresult]
    simp [Except.map]
  | ok found =>
    obtain ⟨b, iss₀⟩ := found
    rw [hfound] at hresult
    rw [hresult]
    have hend : iss₀.rest ++ more = pipeChar :: more ↔ iss₀.rest = [pipeChar] :=
      @List.append_left_inj _ iss₀.rest [pipeChar] more
    constructor
    · rintro ⟨iss', hok, hrest'⟩
      cases hok
      exact ⟨_, rfl, hend.mpr hrest'⟩
    · rintro ⟨iss', hok, hrest'⟩
      cases hok
      exact ⟨_, rfl, hend.mp hrest'⟩

/-! ### Turns -/

theorem nextIterator_validSequence (iterator : Fin 5) :
    nextIterator iterator (validSequence iterator) = .ok (iterator + 1) := by
  revert iterator
  decide

theorem validSequence_ne_zero (iterator : Fin 5) : validSequence iterator ≠ 0 := by
  revert iterator
  decide

/-- A turn that reads the byte of a command is what it does with what follows. -/
theorem turn_eq {e₁ : LinkExtractor} {c : UInt8} {iss : IStringStream} {iterator : Fin 5}
    (heof : e.iss.eof = false) (hseek : seekPipe e = .ok e₁) (hget : e₁.iss.get = (some c, iss))
    (hc : c ≠ 0) (hnext : nextIterator e₁.iterator c = .ok iterator) :
    turn stores e = (readPayload stores c { e₁ with iss, iterator }).map .yield := by
  obtain ⟨hgood, hiss, hwent⟩ := get_eq_some hget
  have hpeek : e₁.iss.peek = (some c, e₁.iss) := by
    unfold peek
    rw [if_pos hgood, hwent.rest]
    rfl
  unfold turn
  rw [if_neg (by rw [heof]; exact Bool.false_ne_true), hseek]
  dsimp only [bind, Except.bind]
  rw [hpeek]
  dsimp only
  rw [if_neg (by simpa using hc), eof_of_good hgood, if_neg Bool.false_ne_true, hget]
  dsimp only
  rw [hnext]
  dsimp only
  cases readPayload stores c { e₁ with iss, iterator } with
  | error failure => rfl
  | ok e₂ => rfl

variable {iss : IStringStream} {rest linkType : List UInt8}

theorem get_of_cons {c : UInt8} (hgood : iss.good = true) (hrest : iss.rest = c :: rest) :
    iss.get = (some c, iss.advance 1) := by
  unfold IStringStream.get
  rw [if_pos hgood, hrest]

/-- The stream behind a text that it begins with. -/
theorem advance_rest (taken : List UInt8) (hrest : iss.rest = taken ++ rest) :
    (iss.advance taken.length).rest = rest := by
  rw [advance, hrest, drop_left]

/-- A turn in a sequence. -/
theorem turn_sequence {iss : IStringStream} {iterator : Fin 5} {rest : List UInt8}
    (hgood : iss.good = true) (hne : iterator ≠ 0)
    (hrest : iss.rest = pipeChar :: validSequence iterator :: rest) (color : UInt32)
    (link : Option ChatLink) :
    ∃ iss', iss'.good = true ∧ iss'.rest = rest ∧ turn stores { iss, iterator, color, link } =
      (readPayload stores (validSequence iterator)
        { iss := iss', iterator := iterator + 1, color, link }).map .yield := by
  have hrest₁ : (iss.advance 1).rest = validSequence iterator :: rest :=
    advance_rest [pipeChar] hrest
  have hget : (iss.advance 1).get = (some (validSequence iterator), _) := get_of_cons hgood hrest₁
  have hseek : seekPipe { iss, iterator, color, link } =
      .ok { iss := iss.advance 1, iterator, color, link } := by
    unfold seekPipe
    rw [if_neg hne, get_of_cons hgood hrest]
    exact if_pos rfl
  refine ⟨(iss.advance 1).advance 1, hgood, advance_rest [validSequence iterator] hrest₁, ?_⟩
  exact @turn_eq stores _ { iss := iss.advance 1, iterator, color, link } _ _ _
    (eof_of_good hgood) hseek hget (validSequence_ne_zero _) (nextIterator_validSequence _)

/-- A turn outside of a sequence. -/
theorem turn_idle {iss : IStringStream} {c : UInt8} {skipped rest : List UInt8} {iterator : Fin 5}
    (hgood : iss.good = true) (hskip : Skips 255 pipeChar skipped)
    (hrest : iss.rest = skipped ++ c :: rest) (hc : c ≠ 0) (hnext : nextIterator 0 c = .ok iterator)
    (color : UInt32) (link : Option ChatLink) :
    ∃ iss', iss'.good = true ∧ iss'.rest = rest ∧ turn stores { iss, color, link } =
      (readPayload stores c { iss := iss', iterator, color }).map .yield := by
  have hrest₁ : (iss.advance skipped.length).rest = c :: rest := advance_rest skipped hrest
  have hget : (iss.advance skipped.length).get = (some c, _) := get_of_cons hgood hrest₁
  have htell : (iss.advance skipped.length).tellg.2 = iss.advance skipped.length :=
    tellg_of_good hgood
  have hseek : seekPipe { iss, color, link } =
      .ok { iss := iss.advance skipped.length, color } := by
    unfold seekPipe
    rw [if_pos rfl, ignore_of_skips hgood hskip hrest]
    dsimp only
    rw [htell]
  refine ⟨(iss.advance skipped.length).advance 1, hgood, advance_rest [c] hrest₁, ?_⟩
  exact @turn_eq stores _ { iss := iss.advance skipped.length, color } c _ iterator
    (eof_of_good hgood) hseek hget hc hnext

/-! ### From a text to the state behind it -/

/-- The loop of `IsValidMessage` goes on from one state with the other. -/
def Continues (stores : LinkStores) (e e' : LinkExtractor) : Prop := turn stores e = .ok (.yield e')

theorem readPayload_pipe (e : LinkExtractor) : readPayload stores pipeChar e = .ok e := by
  unfold readPayload
  rw [if_neg (by decide), if_neg (by decide), if_neg (by decide), if_pos (Or.inr rfl)]

theorem readPayload_r (e : LinkExtractor) : readPayload stores 'r'.toUInt8 e = .ok e := by
  unfold readPayload
  rw [if_neg (by decide), if_neg (by decide), if_neg (by decide), if_pos (Or.inl rfl)]

theorem readPayload_h (e : LinkExtractor) (hit : e.iterator = 4) :
    readPayload stores 'h'.toUInt8 e = .ok e := by
  unfold readPayload
  rw [if_neg (by decide), if_neg (by decide), if_pos rfl, if_neg (by rw [hit]; decide)]

theorem readPayload_caption (e : LinkExtractor) (hit : e.iterator = 3) :
    readPayload stores 'h'.toUInt8 e = readName stores e := by
  unfold readPayload
  rw [if_neg (by decide), if_neg (by decide), if_pos rfl, if_pos (by rw [hit]; decide)]

theorem finds_readHex {more : List UInt8} (hgood : iss.good = true)
    (hrest : iss.rest = text ++ pipeChar :: more) (color : UInt32) :
    Finds (fun iss => readHex iss 8) text color ↔
      ∃ iss', readHex iss 8 = .ok (color, iss') ∧ iss'.rest = pipeChar :: more :=
  finds_iff (shifts_readHex 8) hgood hrest color

theorem finds_initializeLink {iss : IStringStream} {more : List UInt8} (hgood : iss.good = true)
    (hrest : iss.rest = text ++ pipeChar :: more) (linkType : List UInt8) (color : UInt32)
    (link : ChatLink) : Finds (initializeLink stores linkType color) text link ↔
      ∃ iss', initializeLink stores linkType color iss = .ok (link, iss') ∧
        iss'.rest = pipeChar :: more :=
  finds_iff (shifts_initializeLink linkType) hgood hrest link

theorem delimiter_not_mem_linkType : ∀ linkType ∈ linkTypes,
    delimiter ∉ linkType ∧ linkType.length < 255 := by
  decide +kernel

/-- The type of a link of a message, and what it is initialized with. -/
theorem readPayload_H {linkType rest : List UInt8} (hgood : e.iss.good = true)
    (hrest : e.iss.rest = linkType ++ delimiter :: rest) (htype : linkType ∈ linkTypes) :
    ∃ iss, iss.good = true ∧ iss.rest = rest ∧ readPayload stores 'H'.toUInt8 e =
      (initializeLink stores linkType e.color iss).map fun read =>
        { e with iss := read.2, link := some read.1 } := by
  obtain ⟨hdelim, hlength⟩ := delimiter_not_mem_linkType linkType htype
  have hline := getline_of_delim 256 hgood hrest hdelim (by omega)
  refine ⟨e.iss.advance (linkType.length + 1), hgood, ?_, ?_⟩
  · have hsplit : e.iss.rest = (linkType ++ [delimiter]) ++ rest := by
      rw [append_assoc]
      exact hrest
    have htail := advance_rest _ hsplit
    rwa [length_append, length_singleton] at htail
  · have heof : (e.iss.advance (linkType.length + 1)).eof = false := eof_of_good hgood
    unfold readPayload
    rw [if_neg (by decide), if_pos rfl, hline]
    dsimp only
    rw [heof, if_neg Bool.false_ne_true]
    cases initializeLink stores linkType e.color (e.iss.advance (linkType.length + 1)) with
    | error failure => rfl
    | ok read => rfl

theorem mem_linkTypes_of_finds {data : List UInt8} {color : UInt32} {link : ChatLink}
    (h : Finds (initializeLink stores linkType color) data link) : linkType ∈ linkTypes := by
  obtain ⟨iss, hlink, -⟩ := h
  exact mem_linkTypes_of_initializeLink hlink

/-- The name of a link of a message. -/
theorem readName_of_valid {name rest : List UInt8} {link : ChatLink} (hgood : e.iss.good = true)
    (hrest : e.iss.rest = '['.toUInt8 :: (name ++ ']'.toUInt8 :: rest))
    (hname : ']'.toUInt8 ∉ name) (hlength : name.length ≤ 255) (hlink : e.link = some link)
    (hvalid : link.validateName stores name = .ok ()) :
    ∃ iss, iss.good = true ∧ iss.rest = rest ∧ readName stores e = .ok { e with iss } := by
  have hget := get_of_cons hgood hrest
  have hrest₁ : (e.iss.advance 1).rest = name ++ ']'.toUInt8 :: rest := advance_rest ['['.toUInt8] hrest
  have hgood₁ : (e.iss.advance 1).good = true := hgood
  have hline := getline_of_delim 256 hgood₁ hrest₁ hname (by omega)
  refine ⟨(e.iss.advance 1).advance (name.length + 1), hgood, ?_, ?_⟩
  · have hsplit : (e.iss.advance 1).rest = (name ++ [']'.toUInt8]) ++ rest := by
      rw [append_assoc]
      exact hrest₁
    have htail := advance_rest _ hsplit
    rwa [List.length_append, List.length_singleton] at htail
  · have heof : ((e.iss.advance 1).advance (name.length + 1)).eof = false := eof_of_good hgood
    unfold readName
    rw [hget]
    dsimp only
    rw [if_neg (by decide), hline]
    dsimp only
    rw [heof, if_neg Bool.false_ne_true, hlink]
    dsimp only [bind, Except.bind]
    rw [hvalid]

/-- In front of a pipe, the extractor comes to the state of the text that it has read. -/
theorem ReadTo.reaches {iterator : Fin 5} {color : UInt32} {link : Option ChatLink}
    (h : ReadTo stores text iterator color link) {rest : List UInt8}
    (hrest : iterator = 1 ∨ iterator = 2 → ∃ more, rest = pipeChar :: more) :
    ∃ iss, iss.good = true ∧ iss.rest = rest ∧ ReflTransGen (Continues stores)
      { iss := { rest := text ++ rest } } { iss, iterator, color, link } := by
  induction h generalizing rest with
  | start => exact ⟨{ rest }, rfl, rfl, .refl⟩
  | @escapedPipe text skipped color link htext hskip ih =>
    obtain ⟨iss, hgood, hiss, hreach⟩ :=
      @ih (skipped ++ pipeChar :: rest) fun h => absurd h (by decide)
    obtain ⟨iss', hgood', hiss', hturn⟩ :=
      @turn_idle stores iss _ _ _ 0 hgood hskip hiss (by decide) rfl color link
    rw [readPayload_pipe] at hturn
    refine ⟨iss', hgood', hiss', ?_⟩
    rw [append_assoc, append_assoc]
    exact hreach.tail hturn
  | @color text skipped digits color color' link htext hskip hcolor ih =>
    obtain ⟨more, rfl⟩ := hrest (.inl rfl)
    obtain ⟨iss, hgood, hiss, hreach⟩ :=
      @ih (skipped ++ 'c'.toUInt8 :: (digits ++ pipeChar :: more)) fun h => absurd h (by decide)
    obtain ⟨iss', hgood', hiss', hturn⟩ :=
      @turn_idle stores iss _ _ _ 1 hgood hskip hiss (by decide) rfl color link
    obtain ⟨iss'', hread, hiss''⟩ := (finds_readHex hgood' hiss' color').mp hcolor
    have hpayload : readPayload stores 'c'.toUInt8 { iss := iss', iterator := 1, color } =
        .ok { iss := iss'', iterator := 1, color := color' } := by
      unfold readPayload
      rw [if_pos rfl, hread]
      rfl
    rw [hpayload] at hturn
    refine ⟨iss'', (readHex_eq_ok hread).1.good hgood', hiss'', ?_⟩
    rw [append_assoc, append_assoc]
    exact hreach.tail hturn
  | @data text linkType data color link link' htext hdata ih =>
    obtain ⟨more, rfl⟩ := hrest (.inr rfl)
    obtain ⟨iss, hgood, hiss, hreach⟩ := @ih (pipeChar :: 'H'.toUInt8 ::
      (linkType ++ delimiter :: (data ++ pipeChar :: more))) fun _ => ⟨_, rfl⟩
    obtain ⟨iss', hgood', hiss', hturn⟩ :=
      @turn_sequence stores iss 1 _ hgood (by decide) hiss color link
    obtain ⟨iss₁, hgood₁, hiss₁, hpayload⟩ := @readPayload_H stores
      { iss := iss', iterator := 2, color, link } linkType _ hgood' hiss'
      (mem_linkTypes_of_finds hdata)
    obtain ⟨iss'', hlink, hiss''⟩ :=
      (finds_initializeLink hgood₁ hiss₁ linkType color link').mp hdata
    dsimp only at hpayload
    rw [hlink] at hpayload
    have hstep : Continues stores { iss, iterator := 1, color, link }
        { iss := iss'', iterator := 2, color, link := some link' } :=
      hturn.trans (congrArg (Except.map ForInStep.yield) hpayload)
    refine ⟨iss'', (readsData_initializeLink linkType _ _ _ hlink).good hgood₁, hiss'', ?_⟩
    simp only [append_assoc, cons_append]
    exact hreach.tail hstep
  | @name text name color link htext hname hlength hvalid ih =>
    obtain ⟨iss, hgood, hiss, hreach⟩ := @ih (pipeChar :: 'h'.toUInt8 :: '['.toUInt8 ::
      (name ++ ']'.toUInt8 :: rest)) fun _ => ⟨_, rfl⟩
    obtain ⟨iss', hgood', hiss', hturn⟩ :=
      @turn_sequence stores iss 2 _ hgood (by decide) hiss color (some link)
    obtain ⟨iss'', hgood'', hiss'', hread⟩ := @readName_of_valid stores
      { iss := iss', iterator := 3, color, link := some link } name rest link hgood' hiss' hname
      hlength rfl hvalid
    have hstep : Continues stores { iss, iterator := 2, color, link := some link }
        { iss := iss'', iterator := 3, color, link := some link } :=
      hturn.trans (congrArg (Except.map ForInStep.yield) ((readPayload_caption _ rfl).trans hread))
    refine ⟨iss'', hgood'', hiss'', ?_⟩
    simp only [append_assoc, cons_append, nil_append]
    exact hreach.tail hstep
  | @closed text color link htext ih =>
    obtain ⟨iss, hgood, hiss, hreach⟩ :=
      @ih (pipeChar :: 'h'.toUInt8 :: rest) fun h => absurd h (by decide)
    obtain ⟨iss', hgood', hiss', hturn⟩ :=
      @turn_sequence stores iss 3 _ hgood (by decide) hiss color link
    have hstep : Continues stores { iss, iterator := 3, color, link }
        { iss := iss', iterator := 4, color, link } :=
      hturn.trans (congrArg (Except.map ForInStep.yield) (readPayload_h _ rfl))
    refine ⟨iss', hgood', hiss', ?_⟩
    rw [append_assoc]
    exact hreach.tail hstep
  | @finish text color link htext ih =>
    obtain ⟨iss, hgood, hiss, hreach⟩ :=
      @ih (pipeChar :: 'r'.toUInt8 :: rest) fun h => absurd h (by decide)
    obtain ⟨iss', hgood', hiss', hturn⟩ :=
      @turn_sequence stores iss 4 _ hgood (by decide) hiss color link
    have hstep : Continues stores { iss, iterator := 4, color, link } { iss := iss', color, link } :=
      hturn.trans (congrArg (Except.map ForInStep.yield) (readPayload_r _))
    refine ⟨iss', hgood', hiss', ?_⟩
    rw [append_assoc]
    exact hreach.tail hstep

/-! ### From a state to the text before it -/

theorem good_of_tellg (h : iss.tellg.2.good = true) : iss.good = true := by
  by_contra hbad
  rw [tellg, if_neg hbad] at h
  simp [good, refuse] at h

theorem seekPipe_of_zero (hzero : e.iterator = 0) :
    seekPipe e = .ok { e with iss := (e.iss.ignore 255 pipeChar).tellg.2, link := none } := by
  unfold seekPipe
  rw [if_pos hzero]

/-- What a turn has read before its command is carried out. -/
theorem seekPipe_get {e₁ : LinkExtractor} {c : UInt8} (hseek : seekPipe e = .ok e₁)
    (hget : e₁.iss.get = (some c, iss)) :
    e.iss.good = true ∧ iss.good = true ∧ e₁.iterator = e.iterator ∧ e₁.color = e.color ∧
      (e.iterator = 0 ∧ e₁.link = none ∧
          (∃ skipped, Skips 255 pipeChar skipped ∧ Went (skipped ++ [c]) e.iss iss) ∨
        e.iterator ≠ 0 ∧ e₁.link = e.link ∧ Went [pipeChar, c] e.iss iss) := by
  obtain ⟨hgood₁, hiss, hwent⟩ := get_eq_some hget
  have hgood : iss.good = true := hiss ▸ hgood₁
  by_cases hzero : e.iterator = 0
  · rw [seekPipe_of_zero hzero] at hseek
    obtain rfl := Except.ok.inj hseek
    have hignore := good_of_tellg hgood₁
    obtain ⟨hgoode, skipped, hskip, hwent₁⟩ := skips_of_ignore hignore
    dsimp only at hwent
    rw [tellg_of_good hignore] at hwent
    exact ⟨hgoode, hgood, rfl, rfl, .inl ⟨hzero, rfl, skipped, hskip, hwent₁.trans hwent⟩⟩
  · unfold seekPipe at hseek
    rw [if_neg hzero] at hseek
    split at hseek
    · next d iss₁ hget₁ =>
      obtain ⟨hgoode, -, hwent₁⟩ := get_eq_some hget₁
      split at hseek
      · next hd =>
        obtain rfl := Except.ok.inj hseek
        rw [hd] at hwent₁
        exact ⟨hgoode, hgood, rfl, rfl, .inr ⟨hzero, rfl, hwent₁.trans hwent⟩⟩
      · cases hseek
    · cases hseek

/-- The type of a link that was read, and the stream behind it. -/
theorem getline_linkType {iss' : IStringStream} (hgood : iss.good = true)
    (h : iss.getline 256 delimiter = (linkType, iss')) (heof : iss'.eof = false)
    (htype : linkType ∈ linkTypes) :
    Went (linkType ++ [delimiter]) iss iss' ∧ iss'.good = true := by
  rcases getline_cases hgood h heof (by omega) with ⟨hwent, -, -, hgood'⟩ | ⟨hfull, -, -⟩
  · exact ⟨hwent, hgood'⟩
  · have hlength := (delimiter_not_mem_linkType linkType htype).2
    omega

/-- A turn of the sequence adds what it has read to the text. -/
theorem ReadTo.command {iterator : Fin 5} {color : UInt32}
    {link : Option ChatLink} (htext : ReadTo stores text iterator color link) (hne : iterator ≠ 0)
    (hgood : iss.good = true)
    (hpayload : readPayload stores (validSequence iterator)
      { iss, iterator := iterator + 1, color, link } = .ok e')
    (hgood' : e'.iss.good = true)
    (hfence : e'.iterator = 1 ∨ e'.iterator = 2 → ∃ more, e'.iss.rest = pipeChar :: more) :
    ∃ taken, iss.rest = taken ++ e'.iss.rest ∧
      ReadTo stores (text ++ pipeChar :: validSequence iterator :: taken) e'.iterator e'.color
        e'.link := by
  cases htext with
  | start => exact absurd rfl hne
  | escapedPipe => exact absurd rfl hne
  | finish => exact absurd rfl hne
  | color htext hskip hcolor =>
    have htext := ReadTo.color htext hskip hcolor
    unfold readPayload at hpayload
    rw [if_neg (by decide), if_pos (by decide)] at hpayload
    dsimp only at hpayload
    obtain ⟨linkType, iss₁, hline⟩ : ∃ linkType iss₁, iss.getline 256 delimiter =
      (linkType, iss₁) := ⟨_, _, rfl⟩
    rw [hline] at hpayload
    dsimp only at hpayload
    split at hpayload
    · cases hpayload
    · next heof =>
      cases hlink : initializeLink stores linkType color iss₁ with
      | error failure =>
        rw [hlink] at hpayload
        cases hpayload
      | ok read =>
        obtain ⟨link', iss₂⟩ := read
        rw [hlink] at hpayload
        cases hpayload
        obtain ⟨hwent, hgood₁⟩ := getline_linkType hgood hline (Bool.eq_false_iff.mpr heof)
          (mem_linkTypes_of_initializeLink hlink)
        obtain ⟨more, hmore⟩ := hfence (.inr rfl)
        obtain ⟨data, hdata, -⟩ := (readsData_initializeLink linkType _ _ _ hlink).went
        dsimp only at hmore
        have hfound := (finds_initializeLink hgood₁ (hmore ▸ hdata.rest) linkType color link').mpr
          ⟨iss₂, hlink, hmore⟩
        refine ⟨linkType ++ delimiter :: data, ?_, .data htext hfound⟩
        have hboth := (hwent.trans hdata).rest
        simp only [append_assoc, cons_append, nil_append] at hboth ⊢
        exact hboth
  | @data text₀ linkType data _ link₀ link' htext hdata =>
    have htext := ReadTo.data htext hdata
    have hread : readName stores { iss, iterator := 3, color, link := some link' } = .ok e' :=
      (readPayload_caption _ rfl).symm.trans hpayload
    unfold readName at hread
    split at hread
    · cases hread
    · next c iss₁ hget =>
      obtain ⟨-, hiss₁, hwent⟩ := get_eq_some hget
      split at hread
      · cases hread
      · next hbracket =>
        obtain ⟨name, iss₂, hline⟩ : ∃ name iss₂, iss₁.getline 256 ']'.toUInt8 = (name, iss₂) :=
          ⟨_, _, rfl⟩
        rw [hline] at hread
        dsimp only at hread
        split at hread
        · cases hread
        · next heof =>
          cases hvalid : link'.validateName stores name with
          | error failure =>
            rw [hvalid] at hread
            cases hread
          | ok _ =>
            rw [hvalid] at hread
            cases hread
            dsimp only at hgood'
            have hcases := getline_cases (hiss₁ ▸ hgood) hline (Bool.eq_false_iff.mpr heof)
              (by omega)
            rcases hcases with ⟨hwent₁, hname, hlength, -⟩ | ⟨-, -, hbad⟩
            · refine ⟨'['.toUInt8 :: (name ++ [']'.toUInt8]), ?_,
                .name htext hname (by omega) hvalid⟩
              have hboth := (hwent.trans hwent₁).rest
              rwa [Decidable.not_not.mp hbracket] at hboth
            · rw [hbad] at hgood'
              cases hgood'
  | name htext hname hlength hvalid =>
    have htext := ReadTo.name htext hname hlength hvalid
    have heq := (readPayload_h _ rfl).symm.trans hpayload
    cases heq
    exact ⟨[], rfl, .closed htext⟩
  | closed htext =>
    have htext := ReadTo.closed htext
    have heq := (readPayload_r _).symm.trans hpayload
    cases heq
    exact ⟨[], rfl, .finish htext⟩

/-- A turn adds what it has read to the text. -/
theorem ReadTo.turn (htext : ReadTo stores text e.iterator e.color e.link)
    (h : Continues stores e e') (hgood' : e'.iss.good = true)
    (hfence : e'.iterator = 1 ∨ e'.iterator = 2 → ∃ more, e'.iss.rest = pipeChar :: more) :
    ∃ taken, e.iss.rest = taken ++ e'.iss.rest ∧
      ReadTo stores (text ++ taken) e'.iterator e'.color e'.link := by
  obtain ⟨e₁, hseek, c, iss, hget, iterator, hnext, hpayload⟩ := turn_yield h
  obtain ⟨-, hgood, hit, hcolor, hcases⟩ := seekPipe_get hseek hget
  rw [hit] at hnext
  rcases hcases with ⟨hzero, hlink, skipped, hskip, hwent⟩ | ⟨hne, hlink, hwent⟩
  · rw [hzero] at htext hnext
    rw [hcolor, hlink] at hpayload
    obtain ⟨rfl, -, rfl⟩ | ⟨rfl, rfl⟩ := nextIterator_eq_ok hnext
    · rw [readPayload_pipe] at hpayload
      obtain rfl := Except.ok.inj hpayload
      exact ⟨skipped ++ [pipeChar], hwent.rest, .escapedPipe htext hskip⟩
    · unfold readPayload at hpayload
      rw [if_pos (by decide)] at hpayload
      cases hread : readHex iss 8 with
      | error failure =>
        rw [hread] at hpayload
        cases hpayload
      | ok read =>
        obtain ⟨color, iss'⟩ := read
        rw [hread] at hpayload
        obtain rfl := Except.ok.inj hpayload
        obtain ⟨more, hmore⟩ := hfence (.inl rfl)
        obtain ⟨digits, hdigits, -⟩ := (readHex_eq_ok hread).1.went
        dsimp only at hmore
        have hfound := (finds_readHex hgood (hmore ▸ hdigits.rest) color).mpr ⟨iss', hread, hmore⟩
        refine ⟨skipped ++ 'c'.toUInt8 :: digits, ?_, .color htext hskip hfound⟩
        have hboth := (hwent.trans hdigits).rest
        simp only [append_assoc, cons_append, nil_append] at hboth ⊢
        exact hboth
  · obtain ⟨-, hzero, -⟩ | ⟨rfl, rfl⟩ := nextIterator_eq_ok hnext
    · exact absurd hzero hne
    · rw [hcolor, hlink] at hpayload
      obtain ⟨taken, htaken, htext'⟩ := htext.command hne hgood hpayload hgood' hfence
      refine ⟨pipeChar :: validSequence e.iterator :: taken, ?_, htext'⟩
      rw [hwent.rest, htaken]
      rfl

end TrinityCore.Chat
