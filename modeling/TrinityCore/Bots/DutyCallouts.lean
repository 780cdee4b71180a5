import TrinityCore.Bots.RaidDutyClaims

/-!
# Callouts compose clause by clause

The clauses of a text split at every separator and at every "but" between spaces, so what a text
calls out is what its first part does overridden by what its second part does. Apostrophes and the
case of letters are lost before clauses are read.
-/

namespace TrinityCore.Bots.RaidDuty

open List UInt8

variable {table : List DutyKeywords} {a b : List UInt8} {word : Word}

/-! ### Splitting -/

/-- A byte that ends words and is nothing else splits the text. -/
theorem normalizeFrom_append {c : UInt8} (hc : c < 0x80) (hquote : c ≠ 39)
    (halnum : isAlnum c = false) (a b : List UInt8) {skip : Nat} (hskip : skip ≤ a.length)
    (word : Word) : normalizeFrom (a ++ c :: b) skip word =
      normalizeFrom a skip word ++ normalizeWords b := by
  have hlead : c ≠ 0xE2 := by
    rintro rfl
    exact absurd hc (by decide)
  induction a generalizing skip word with
  | nil =>
    obtain rfl : skip = 0 := Nat.le_zero.mp hskip
    simp [normalizeFrom, hquote, hlead, halnum, normalizeWords]
  | cons d a ih =>
    cases skip with
    | succ skip => exact ih (Nat.succ_le_succ_iff.mp hskip) word
    | zero =>
      -- The byte is not part of the multi-byte apostrophe.
      have htake : (a ++ c :: b).take 2 = [0x80, 0x99] ↔ a.take 2 = [0x80, 0x99] := by
        have h80 : c ≠ 0x80 := fun heq => absurd hc (by rw [heq]; decide)
        have h99 : c ≠ 0x99 := fun heq => absurd hc (by rw [heq]; decide)
        match a with
        | [] => simp [h80]
        | [x] => simp [h99]
        | x :: y :: rest => simp
      rw [cons_append, normalizeFrom, normalizeFrom]
      simp only [htake]
      split
      · exact ih (Nat.zero_le _) word
      · split
        · next hmulti =>
          apply ih
          have := congrArg length hmulti.2
          simp only [length_take, length_cons, length_nil] at this
          omega
        · split
          · exact ih (Nat.zero_le _) _
          · rw [ih (Nat.zero_le _), append_assoc]

/-- A list is split around a part in which nothing splits it. -/
theorem splitOnP_append {α : Type*} (p : α → Bool) (xs ys : List α) :
    ∃ init last first tail, xs.splitOnP p = init ++ [last] ∧ ys.splitOnP p = first :: tail ∧
      ∀ mid : List α, (∀ x ∈ mid, p x = false) →
        (xs ++ mid ++ ys).splitOnP p = init ++ (last ++ mid ++ first) :: tail := by
  obtain ⟨first, tail, hfirst⟩ := exists_cons_of_ne_nil (splitOnP_ne_nil p ys)
  have hmid : ∀ mid : List α, (∀ x ∈ mid, p x = false) →
      (mid ++ ys).splitOnP p = (mid ++ first) :: tail := by
    intro mid hmid
    induction mid with
    | nil => exact hfirst
    | cons x mid ih =>
      rw [cons_append, splitOnP_cons_eq_if_modifyHead, hmid x mem_cons_self,
        ih fun y hy => hmid y (mem_cons_of_mem x hy)]
      rfl
  induction xs with
  | nil => exact ⟨[], [], first, tail, splitOnP_nil, hfirst, fun mid h => hmid mid h⟩
  | cons x xs ih =>
    obtain ⟨init, last, first', tail', hxs, hys, hall⟩ := ih
    obtain ⟨rfl, rfl⟩ := cons.inj (hfirst.symm.trans hys)
    rw [splitOnP_cons_eq_if_modifyHead, hxs]
    by_cases hx : p x = true
    · refine ⟨[] :: init, last, first, tail, by rw [if_pos hx]; rfl, hfirst, fun mid h => ?_⟩
      rw [cons_append, cons_append, splitOnP_cons_eq_if_modifyHead, if_pos hx, hall mid h]
      rfl
    · rw [if_neg hx]
      cases init with
      | nil =>
        refine ⟨[], x :: last, first, tail, rfl, hfirst, fun mid h => ?_⟩
        rw [cons_append, cons_append, splitOnP_cons_eq_if_modifyHead, if_neg hx, hall mid h]
        rfl
      | cons head init =>
        refine ⟨(x :: head) :: init, last, first, tail, rfl, hfirst, fun mid h => ?_⟩
        rw [cons_append, cons_append, splitOnP_cons_eq_if_modifyHead, if_neg hx, hall mid h]
        rfl

/-- What separates clauses. -/
def separators : List (List UInt8) := [[44], [59], [46], [33], ascii " but "]

theorem clauses_append_cons {c : UInt8} (hc : isSeparator c = true) (a b : List UInt8) :
    clauses (a ++ c :: b) = clauses a ++ clauses b := by
  unfold clauses
  rw [splitOnP_append_cons a b hc, flatMap_append]

/-- Between spaces "but" splits the words of a segment. -/
theorem normalizeWords_but (a b : List UInt8) :
    (normalizeWords (a ++ ascii " but " ++ b)).splitOnP (· == ascii "but") =
      (normalizeWords a).splitOnP (· == ascii "but") ++
        (normalizeWords b).splitOnP (· == ascii "but") := by
  have hwords : normalizeWords (a ++ ascii " but " ++ b) =
      normalizeWords a ++ ascii "but" :: normalizeWords b := by
    have htext : a ++ ascii " but " ++ b = a ++ 32 :: (ascii "but" ++ 32 :: b) := by
      rw [append_assoc]
      rfl
    have hbut : normalizeWords (ascii "but") = [ascii "but"] := by decide
    unfold normalizeWords at hbut ⊢
    rw [htext, normalizeFrom_append (by decide) (by decide) (by decide) _ _ (Nat.zero_le _)]
    unfold normalizeWords
    rw [normalizeFrom_append (by decide) (by decide) (by decide) _ _ (Nat.zero_le _), hbut]
    rfl
  rw [hwords]
  exact splitOnP_append_cons _ _ (by simp)

variable {s : List UInt8}

theorem clauses_append (hs : s ∈ separators) (a b : List UInt8) :
    clauses (a ++ s ++ b) = clauses a ++ clauses b := by
  have hone : ∀ c : UInt8, isSeparator c = true →
      clauses (a ++ [c] ++ b) = clauses a ++ clauses b := by
    intro c hc
    rw [append_assoc]
    exact clauses_append_cons hc a b
  simp only [separators, mem_cons, not_mem_nil, or_false] at hs
  rcases hs with rfl | rfl | rfl | rfl | rfl
  · exact hone 44 rfl
  · exact hone 59 rfl
  · exact hone 46 rfl
  · exact hone 33 rfl
  · obtain ⟨init, last, first, tail, ha, hb, hall⟩ := splitOnP_append isSeparator a b
    have hbut : ∀ c ∈ ascii " but ", isSeparator c = false := by simp [ascii, isSeparator]
    unfold clauses
    rw [hall (ascii " but ") hbut, ha, hb, flatMap_append, flatMap_cons, normalizeWords_but]
    simp only [flatMap_append, flatMap_cons, flatMap_nil, append_nil, append_assoc]

/-! ### Overriding -/

theorem foldl_merge (clauses : List (List Callout)) (callouts : List Callout) :
    clauses.foldl merge callouts =
      clauses.flatten.foldl (Overriding.put Callout.duty) callouts := by
  induction clauses generalizing callouts with
  | nil => rfl
  | cons clause clauses ih => rw [foldl_cons, ih, flatten_cons, foldl_append]; rfl

/-- The callouts of a text that is not a question. -/
def calledOut (table : List DutyKeywords) (text : List UInt8) : List Callout :=
  ((clauses text).map (parseClause table)).flatten.foldl (Overriding.put Callout.duty) []

theorem parseCallouts_eq (h : (63 : UInt8) ∉ a) : parseCallouts a table = calledOut table a := by
  unfold parseCallouts
  rw [if_neg (by simpa using h), foldl_merge]
  rfl

theorem nodup_calledOut (text : List UInt8) :
    ((calledOut table text).map Callout.duty).Nodup :=
  Overriding.nodup_foldl_put (by simp) _

theorem calledOut_append (hs : s ∈ separators) (a b : List UInt8) :
    calledOut table (a ++ s ++ b) =
      Overriding.override Callout.duty (calledOut table a) (calledOut table b) := by
  have hsplit : calledOut table (a ++ s ++ b) =
      ((clauses b).map (parseClause table)).flatten.foldl (Overriding.put Callout.duty)
        (calledOut table a) := by
    unfold calledOut
    rw [clauses_append hs, map_append, flatten_append, foldl_append]
  rw [hsplit]
  exact Overriding.foldl_put_eq_override (nodup_calledOut a) _

/-! ### Personal callouts -/

/-- Only a release may be personal. -/
def Callout.Proper (callout : Callout) : Prop := callout.personal = true → callout.intent = .release

theorem clauseIntent_proper {words : List Word} {first last : Mention}
    {base : CalloutIntent × Bool} (h : clauseIntent words first last = some base) :
    base.2 = true → base.1 = .release := by
  unfold clauseIntent at h
  dsimp only at h
  split at h
  · cases h
    exact fun _ => rfl
  · split at h
    · cases h
      exact fun _ => rfl
    · split at h
      · cases h
        exact fun hfalse => nomatch hfalse
      · cases h

theorem proper_of_mem_parseClause {words : List Word} {callout : Callout}
    (h : callout ∈ parseClause table words) : callout.Proper := by
  have hfold : ∀ base : CalloutIntent × Bool, (base.2 = true → base.1 = .release) →
      ∀ (mentions : List Mention) (callouts : List Callout), (∀ c ∈ callouts, c.Proper) →
        ∀ c ∈ mentions.foldl (addMention base) callouts, c.Proper := by
    intro base hbase mentions
    induction mentions with
    | nil => exact fun _ hall => hall
    | cons mention mentions ih =>
      intro callouts hall
      apply ih
      unfold addMention
      split
      · exact hall
      · intro c hc
        rcases mem_append.mp hc with hc | hc
        · exact hall c hc
        · rw [mem_singleton.mp hc]
          exact hbase
  unfold parseClause at h
  dsimp only at h
  split at h
  · split at h
    · cases h
    · split at h
      · cases h
      · next base hbase =>
        exact hfold base (clauseIntent_proper hbase) _ [] (fun _ hc => nomatch hc) callout h
  · cases h

theorem proper_of_mem_calledOut {text : List UInt8} {callout : Callout}
    (h : callout ∈ calledOut table text) : callout.Proper := by
  have hfold : ∀ (entries callouts : List Callout), (∀ c ∈ entries, c.Proper) →
      (∀ c ∈ callouts, c.Proper) →
        ∀ c ∈ entries.foldl (Overriding.put Callout.duty) callouts, c.Proper := by
    intro entries
    induction entries with
    | nil => exact fun _ _ hall => hall
    | cons entry entries ih =>
      intro callouts hentries hall
      rw [forall_mem_cons] at hentries
      refine ih _ hentries.2 fun c hc => ?_
      rcases Overriding.mem_put hc with hc | rfl
      · exact hall c hc
      · exact hentries.1
  refine hfold _ [] ?_ (fun _ hc => nomatch hc) callout h
  intro c hc
  obtain ⟨clause, hclause, hmem⟩ := mem_flatten.mp hc
  obtain ⟨words, -, rfl⟩ := mem_map.mp hclause
  exact proper_of_mem_parseClause hmem

/-! ### Apostrophes and case -/

/-- An apostrophe, ASCII or U+2019. -/
def isApostrophe (c : Char) : Bool := c == '\'' || c == '\u2019'

/-- The text without apostrophes, in lower case as far as it is ASCII. -/
def plain (text : List Char) : List Char := (text.filter (!isApostrophe ·)).map Char.toLower

/-- UTF-8. -/
def encode (text : List Char) : List UInt8 := text.flatMap String.utf8EncodeChar

theorem utf8EncodeChar_of_lt {c : Char} (h : c.toNat < 128) :
    String.utf8EncodeChar c = [ofNat c.toNat] := if_pos (Nat.le_of_lt_succ h)

/-- The bytes of a longer encoding: none is ASCII, only the first may be 0xE2, and they spell the
apostrophe only if they are its. -/
theorem utf8EncodeChar_of_le {c : Char} (h : 128 ≤ c.toNat) : ∃ lead cont,
    String.utf8EncodeChar c = lead :: cont ∧ 0x80 ≤ lead ∧
      (∀ d ∈ cont, 0x80 ≤ d ∧ d ≠ 0xE2) ∧
      (c = '\u2019' → lead = 0xE2 ∧ cont = [0x80, 0x99]) ∧
      ∀ rest, lead = 0xE2 → (cont ++ rest).take 2 = [0x80, 0x99] → c = '\u2019' := by
  have hbyte (n k : Nat) (hn : n < 256) (hk : k < 256) :
      UInt8.ofNat n = UInt8.ofNat k ↔ n = k := by
    rw [← UInt8.toNat_inj, UInt8.toNat_ofNat_of_lt' hn, UInt8.toNat_ofNat_of_lt' hk]
  have hle (n : Nat) (hn : n < 256) (hhigh : 128 ≤ n) : 0x80 ≤ UInt8.ofNat n := by
    rw [le_iff_toNat_le, toNat_ofNat_of_lt' hn]
    exact hhigh
  have hcont (n : Nat) : 0x80 ≤ ofNat (n % 64 + 128) ∧ ofNat (n % 64 + 128) ≠ 0xE2 :=
    ⟨hle _ (by omega) (by omega), fun heq => by
      have := (hbyte _ 0xE2 (by omega) (by omega)).mp heq
      omega⟩
  have hquote : c = '\u2019' ↔ c.val.toNat = 0x2019 := by
    rw [← Char.toNat_inj]
    rfl
  have hmax : c.val.toNat < 0x110000 := c.valid.elim (fun h => by omega) fun h => h.2
  have hval : 128 ≤ c.val.toNat := h
  rw [hquote]
  unfold String.utf8EncodeChar
  dsimp only
  generalize c.val.toNat = v at hmax hval
  rw [if_neg (by omega)]
  split
  · refine ⟨_, _, rfl, hle _ (by omega) (by omega), ?_, by omega, fun rest hlead => ?_⟩
    · exact forall_mem_singleton.mpr (hcont v)
    · have := (hbyte _ 0xE2 (by omega) (by omega)).mp hlead
      omega
  · split
    · refine ⟨_, _, rfl, hle _ (by omega) (by omega), ?_, ?_, fun rest hlead htake => ?_⟩
      · exact forall_mem_cons.mpr ⟨hcont _, forall_mem_singleton.mpr (hcont v)⟩
      · rintro rfl
        decide
      · simp only [cons_append, take_succ_cons, take_zero, cons.injEq,
          and_true] at htake
        have hfirst := (hbyte _ 0xE2 (by omega) (by omega)).mp hlead
        have hsecond := (hbyte _ 0x80 (by omega) (by omega)).mp htake.1
        have hthird := (hbyte _ 0x99 (by omega) (by omega)).mp htake.2
        omega
    · refine ⟨_, _, rfl, hle _ (by omega) (by omega), ?_, by omega, fun rest hlead => ?_⟩
      · exact forall_mem_cons.mpr ⟨hcont _,
          forall_mem_cons.mpr ⟨hcont _, forall_mem_singleton.mpr (hcont v)⟩⟩
      · have := (hbyte _ 0xE2 (by omega) (by omega)).mp hlead
        omega

/-- The words of characters. -/
def charWords : List Char → Word → List Word
  | [], word => flush word
  | c :: text, word =>
    if isApostrophe c then charWords text word
    else if c.toNat < 128 ∧ isAlnum (ofNat c.toNat) then
      charWords text (word ++ [toLower (ofNat c.toNat)])
    else flush word ++ charWords text []

theorem not_alnum_of_le {d : UInt8} (h : 0x80 ≤ d) : d ≠ 39 ∧ isAlnum d = false := by
  constructor
  · rintro rfl
    exact absurd h (by decide)
  · simp only [isAlnum, Bool.or_eq_false_iff, decide_eq_false_iff_not, le_iff_toNat_le,
      reduceToNat] at h ⊢
    omega

/-- The bytes of an encoding after the first end no word. -/
theorem normalizeFrom_cont {cont : List UInt8} (h : ∀ d ∈ cont, 0x80 ≤ d ∧ d ≠ 0xE2)
    (rest : List UInt8) : normalizeFrom (cont ++ rest) 0 [] = normalizeFrom rest 0 [] := by
  induction cont with
  | nil => rfl
  | cons d cont ih =>
    rw [forall_mem_cons] at h
    obtain ⟨hquote, halnum⟩ := not_alnum_of_le h.1.1
    rw [cons_append, normalizeFrom, if_neg hquote, if_neg fun hlead => h.1.2 hlead.1, halnum,
      if_neg Bool.false_ne_true, ih h.2]
    rfl

variable (text : List Char)

theorem normalizeFrom_encode (word : Word) :
    normalizeFrom (encode text) 0 word = charWords text word := by
  induction text generalizing word with
  | nil => rfl
  | cons c text ih =>
    have hcons : encode (c :: text) = String.utf8EncodeChar c ++ encode text := rfl
    rw [hcons, charWords]
    by_cases hlt : c.toNat < 128
    · have hbyte : (ofNat c.toNat).toNat = c.toNat :=
        toNat_ofNat_of_lt' (by exact Nat.lt_trans hlt (by decide))
      have hquote : UInt8.ofNat c.toNat = 39 ↔ isApostrophe c = true := by
        rw [← UInt8.toNat_inj, hbyte, isApostrophe, Bool.or_eq_true, beq_iff_eq, beq_iff_eq,
          ← Char.toNat_inj, ← Char.toNat_inj]
        show c.toNat = 39 ↔ c.toNat = 39 ∨ c.toNat = 0x2019
        omega
      have hlead : UInt8.ofNat c.toNat ≠ 0xE2 := by
        rw [ne_eq, ← UInt8.toNat_inj, hbyte]
        show c.toNat ≠ 0xE2
        omega
      rw [utf8EncodeChar_of_lt hlt, singleton_append, normalizeFrom]
      simp only [hquote, hlead, hlt, false_and, true_and, if_false, ih]
    · obtain ⟨lead, cont, henc, hge, hcont, hquote, hpattern⟩ :=
        utf8EncodeChar_of_le (Nat.le_of_not_lt hlt)
      have hnot : ¬(c.toNat < 128 ∧ isAlnum (ofNat c.toNat) = true) := fun h => hlt h.1
      have hascii : c ≠ '\'' := by
        rintro rfl
        exact hlt (by decide)
      rw [henc, cons_append, normalizeFrom, if_neg hnot]
      obtain ⟨hplain, halnum⟩ := not_alnum_of_le hge
      by_cases hc : c = '\u2019'
      · obtain ⟨rfl, rfl⟩ := hquote hc
        simp [isApostrophe, hc, normalizeFrom, ih]
      · rw [if_neg hplain, if_neg fun h => hc (hpattern _ h.1 h.2), halnum,
          if_neg Bool.false_ne_true, normalizeFrom_cont hcont, ih]
        simp [isApostrophe, hascii, hc]

theorem toLower_cases (c : Char) :
    c.toLower = c ∨ 65 ≤ c.toNat ∧ c.toNat ≤ 90 ∧ c.toLower.toNat = c.toNat + 32 := by
  unfold Char.toLower
  split
  · next h =>
    have hlow : 65 ≤ c.toNat := UInt32.le_iff_toNat_le.mp h.1
    have hhigh : c.toNat ≤ 90 := UInt32.le_iff_toNat_le.mp h.2
    refine .inr ⟨hlow, hhigh, ?_⟩
    show (c.val + 32).toNat = c.toNat + 32
    rw [UInt32.toNat_add]
    exact Nat.mod_eq_of_lt (by show c.toNat + 32 < 2 ^ 32; omega)
  · exact .inl rfl

theorem charWords_plain (word : Word) : charWords (plain text) word = charWords text word := by
  induction text generalizing word with
  | nil => rfl
  | cons c text ih =>
    have hrest : plain (c :: text) =
        if isApostrophe c then plain text else c.toLower :: plain text := by
      unfold plain
      cases h : isApostrophe c <;> simp [h]
    rw [hrest, charWords]
    split
    · exact ih word
    · next hnot =>
      rw [charWords]
      simp only [ih]
      rcases toLower_cases c with hsame | ⟨hlow, hhigh, hupper⟩
      · rw [hsame, if_neg hnot]
      · have hnot' : isApostrophe c.toLower = false := by
          rw [isApostrophe, Bool.or_eq_false_iff, beq_eq_false_iff_ne, beq_eq_false_iff_ne, ne_eq,
            ne_eq, ← Char.toNat_inj, ← Char.toNat_inj, hupper]
          exact ⟨fun h => absurd h (by show ¬c.toNat + 32 = 39; omega),
            fun h => absurd h (by show ¬c.toNat + 32 = 0x2019; omega)⟩
        have hletter : ∀ n, n < 26 → isAlnum (ofNat (n + 65)) = true ∧
            isAlnum (ofNat (n + 97)) = true ∧
            toLower (ofNat (n + 97)) = toLower (ofNat (n + 65)) := by decide
        obtain ⟨hbig, hsmall, hsame⟩ := hletter (c.toNat - 65) (by omega)
        rw [show c.toNat - 65 + 65 = c.toNat by omega] at hbig hsame
        rw [show c.toNat - 65 + 97 = c.toNat + 32 by omega] at hsmall hsame
        rw [hnot', hupper, if_neg Bool.false_ne_true, if_pos ⟨by omega, hsmall⟩,
          if_pos ⟨by omega, hbig⟩, hsame]

/-- A list is split like the list it is made from. -/
theorem splitOnP_flatMap {α β : Type*} {p : α → Bool} {q : β → Bool} {g : α → List β}
    (hsep : ∀ x, p x = true → ∃ y, g x = [y] ∧ q y = true)
    (hother : ∀ x, p x = false → ∀ y ∈ g x, q y = false) (xs : List α) :
    (xs.flatMap g).splitOnP q = (xs.splitOnP p).map (List.flatMap g) := by
  induction xs with
  | nil => simp
  | cons x xs ih =>
    rw [flatMap_cons, splitOnP_cons_eq_if_modifyHead]
    cases hx : p x with
    | true =>
      obtain ⟨y, hy, hq⟩ := hsep x hx
      rw [hy, singleton_append, splitOnP_cons_eq_if_modifyHead, if_pos hq, ih]
      rfl
    | false =>
      have hprepend : ∀ ys : List β, (∀ y ∈ ys, q y = false) →
          (ys ++ xs.flatMap g).splitOnP q =
            ((xs.flatMap g).splitOnP q).modifyHead (ys ++ ·) := by
        intro ys hys
        induction ys with
        | nil =>
          rw [nil_append]
          cases (xs.flatMap g).splitOnP q <;> rfl
        | cons y ys ihy =>
          rw [forall_mem_cons] at hys
          rw [cons_append, splitOnP_cons_eq_if_modifyHead, hys.1, ihy hys.2]
          cases (xs.flatMap g).splitOnP q <;> rfl
      rw [hprepend _ (hother x hx), ih, if_neg Bool.false_ne_true]
      cases xs.splitOnP p <;> rfl

/-- A character that separates clauses. -/
def isSeparatorChar (c : Char) : Bool := decide (c.toNat < 128) && isSeparator (ofNat c.toNat)

theorem isSeparator_of_le {d : UInt8} (h : 0x80 ≤ d) : isSeparator d = false := by
  simp only [isSeparator, Bool.or_eq_false_iff, beq_eq_false_iff_ne]
  refine ⟨⟨⟨?_, ?_⟩, ?_⟩, ?_⟩ <;> rintro rfl <;> exact absurd h (by decide)

theorem splitOnP_encode :
    (encode text).splitOnP isSeparator = (text.splitOnP isSeparatorChar).map encode := by
  apply splitOnP_flatMap
  · intro c hc
    rw [isSeparatorChar, Bool.and_eq_true, decide_eq_true_iff] at hc
    exact ⟨_, utf8EncodeChar_of_lt hc.1, hc.2⟩
  · intro c hc d hd
    by_cases hlt : c.toNat < 128
    · rw [utf8EncodeChar_of_lt hlt, mem_singleton] at hd
      rw [isSeparatorChar, decide_eq_true hlt, Bool.true_and] at hc
      rw [hd, hc]
    · obtain ⟨lead, cont, henc, hge, hcont, -⟩ := utf8EncodeChar_of_le (Nat.le_of_not_lt hlt)
      rw [henc, mem_cons] at hd
      rcases hd with rfl | hd
      · exact isSeparator_of_le hge
      · exact isSeparator_of_le (hcont d hd).1

/-- `plain`, character by character. -/
def plainChar (c : Char) : List Char := if isApostrophe c then [] else [c.toLower]

theorem plain_eq : plain text = text.flatMap plainChar := by
  induction text with
  | nil => rfl
  | cons c text ih =>
    rw [flatMap_cons, ← ih, plainChar, plain]
    cases h : isApostrophe c <;> simp [h, plain]

theorem splitOnP_plain :
    (plain text).splitOnP isSeparatorChar = (text.splitOnP isSeparatorChar).map plain := by
  rw [show plain = flatMap plainChar from funext plain_eq]
  have hsymbol : ∀ c : Char, isSeparatorChar c = true →
      c = ',' ∨ c = ';' ∨ c = '.' ∨ c = '!' := by
    intro c hc
    rw [isSeparatorChar, Bool.and_eq_true, decide_eq_true_iff] at hc
    have hbyte : (ofNat c.toNat).toNat = c.toNat :=
      toNat_ofNat_of_lt' (by exact Nat.lt_trans hc.1 (by decide))
    have hsep := hc.2
    simp only [isSeparator, Bool.or_eq_true, beq_iff_eq, ← UInt8.toNat_inj, hbyte] at hsep
    simp only [← Char.toNat_inj]
    rcases hsep with ((h | h) | h) | h
    · exact .inl h
    · exact .inr (.inl h)
    · exact .inr (.inr (.inl h))
    · exact .inr (.inr (.inr h))
  apply splitOnP_flatMap
  · intro c hc
    refine ⟨c, ?_, hc⟩
    rcases hsymbol c hc with rfl | rfl | rfl | rfl <;> rfl
  · intro c hc d hd
    unfold plainChar at hd
    split at hd
    · cases hd
    · rw [mem_singleton] at hd
      rcases toLower_cases c with hsame | ⟨hlow, hhigh, hupper⟩
      · rw [hd, hsame, hc]
      · rw [Bool.eq_false_iff]
        intro hsep
        have hlarge : 97 ≤ d.toNat := by
          rw [hd, hupper]
          omega
        rcases hsymbol d hsep with rfl | rfl | rfl | rfl <;> exact absurd hlarge (by decide)

/-- What clauses a text has depends on its plain characters only. -/
theorem clauses_encode : clauses (encode text) = clauses (encode (plain text)) := by
  unfold clauses
  rw [splitOnP_encode, splitOnP_encode, splitOnP_plain, map_map]
  simp only [flatMap_map, Function.comp_apply, normalizeWords, normalizeFrom_encode,
    charWords_plain]

theorem mem_encode_iff : (63 : UInt8) ∈ encode text ↔ '?' ∈ text := by
  have hchar : ∀ c : Char, (63 : UInt8) ∈ String.utf8EncodeChar c ↔ c = '?' := by
    intro c
    constructor
    · intro hmem
      by_cases hlt : c.toNat < 128
      · have hbyte : (ofNat c.toNat).toNat = c.toNat :=
          UInt8.toNat_ofNat_of_lt' (by exact Nat.lt_trans hlt (by decide))
        rw [utf8EncodeChar_of_lt hlt, mem_singleton, ← UInt8.toNat_inj, hbyte] at hmem
        exact Char.toNat_inj.mp hmem.symm
      · obtain ⟨lead, cont, henc, hge, hcont, -⟩ := utf8EncodeChar_of_le (Nat.le_of_not_lt hlt)
        rw [henc, mem_cons] at hmem
        rcases hmem with rfl | hmem
        · exact absurd hge (by decide)
        · exact absurd (hcont _ hmem).1 (by decide)
    · rintro rfl
      decide
  unfold encode
  simp only [mem_flatMap, hchar, exists_eq_right]

theorem mem_plain_iff : '?' ∈ plain text ↔ '?' ∈ text := by
  have hchar : ∀ c : Char, '?' ∈ plainChar c ↔ c = '?' := by
    intro c
    constructor
    · intro hmem
      unfold plainChar at hmem
      split at hmem
      · cases hmem
      · rw [mem_singleton] at hmem
        rcases toLower_cases c with hsame | ⟨hlow, -, hupper⟩
        · rw [hmem, hsame]
        · rw [← hmem] at hupper
          exact absurd hupper (by show ¬63 = c.toNat + 32; omega)
    · rintro rfl
      exact mem_singleton.mpr rfl
  rw [plain_eq]
  simp only [mem_flatMap, hchar, exists_eq_right]

theorem parseCallouts_encode :
    parseCallouts (encode text) table = parseCallouts (encode (plain text)) table := by
  have hquestion : (encode text).contains 63 = (encode (plain text)).contains 63 := by
    rw [Bool.eq_iff_iff, contains_iff_mem, contains_iff_mem, mem_encode_iff,
      mem_encode_iff, mem_plain_iff]
  unfold parseCallouts
  rw [hquestion, clauses_encode]

theorem not_mem_append (hs : s ∈ separators) (ha : (63 : UInt8) ∉ a) (hb : (63 : UInt8) ∉ b) :
    (63 : UInt8) ∉ a ++ s ++ b := by
  have hsep : ∀ s ∈ separators, (63 : UInt8) ∉ s := by decide
  simp only [mem_append, not_or]
  exact ⟨⟨ha, hsep s hs⟩, hb⟩

theorem parseCallouts_append (hs : s ∈ separators) (ha : (63 : UInt8) ∉ a)
    (hb : (63 : UInt8) ∉ b) : parseCallouts (a ++ s ++ b) table =
      Overriding.override Callout.duty (parseCallouts a table) (parseCallouts b table) := by
  rw [parseCallouts_eq (not_mem_append hs ha hb), parseCallouts_eq ha, parseCallouts_eq hb,
    calledOut_append hs]

theorem parseCallouts_nil : parseCallouts [] table = [] := rfl

/-- The callouts of two texts with a separator between them are those of the first overridden by
those of the second; there is one for each duty at most, and only releases are personal; empty
parts change nothing; and neither do apostrophes nor the case of letters. -/
theorem callouts_compose (table : List DutyKeywords) :
    (∀ (a b : List UInt8), ∀ s ∈ separators, 63 ∉ a → 63 ∉ b →
      parseCallouts (a ++ s ++ b) table =
        Overriding.override Callout.duty (parseCallouts a table) (parseCallouts b table)) ∧
    (∀ text, ((parseCallouts text table).map Callout.duty).Nodup ∧
      ∀ callout ∈ parseCallouts text table, callout.personal = true →
        callout.intent = .release) ∧
    (∀ (a b : List UInt8), ∀ s ∈ separators, ∀ s' ∈ separators, 63 ∉ a → 63 ∉ b →
      parseCallouts (a ++ s ++ s' ++ b) table = parseCallouts (a ++ s ++ b) table ∧
      parseCallouts (s ++ b) table = parseCallouts b table ∧
      parseCallouts (a ++ s) table = parseCallouts a table) ∧
    (∀ text text' : List Char, plain text = plain text' →
      parseCallouts (encode text) table = parseCallouts (encode text') table) := by
  refine ⟨fun a b s hs ha hb => parseCallouts_append hs ha hb, fun text => ?_, ?_, ?_⟩
  · by_cases hquestion : (63 : UInt8) ∈ text
    · rw [parseCallouts, if_pos (contains_iff_mem.mpr hquestion)]
      exact ⟨nodup_nil, fun _ hmem => nomatch hmem⟩
    · rw [parseCallouts_eq hquestion]
      exact ⟨nodup_calledOut text, fun callout hmem => proper_of_mem_calledOut hmem⟩
  · intro a b s hs s' hs' ha hb
    have hright : ∀ a : List UInt8, 63 ∉ a → ∀ s ∈ separators,
        parseCallouts (a ++ s) table = parseCallouts a table := by
      intro a ha s hs
      have h := @parseCallouts_append table a [] s hs ha (by simp)
      rwa [append_nil, parseCallouts_nil, Overriding.override_nil] at h
    have has : (63 : UInt8) ∉ a ++ s := by
      simpa using not_mem_append hs ha (b := []) (by simp)
    refine ⟨?_, ?_, hright a ha s hs⟩
    · rw [parseCallouts_append hs' has hb, parseCallouts_append hs ha hb, hright a ha s hs]
    · have h := @parseCallouts_append table [] b s hs (by simp) hb
      rwa [nil_append, parseCallouts_nil, Overriding.nil_override] at h
  · intro text text' heq
    rw [parseCallouts_encode, heq, ← parseCallouts_encode]

/-- A table with one duty. -/
example : parseCallouts (ascii "bots do chains, I do chains")
    [{ duty := ascii "chains", keywords := [ascii "chains"] }] =
      [⟨ascii "chains", .claim, false⟩] := by decide

end TrinityCore.Bots.RaidDuty
