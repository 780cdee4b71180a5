import TrinityCore.Bots.RaidLockoutPlan

/-!
# Boss lists

`ParseBossList` of `BotRaidLockoutPlan.h`, over the bytes of the text: `std::getline` up to each
comma, the check of every item, and the check for a trailing comma that `std::getline` cannot
see. It accepts `none`, and the lists its grammar describes.
-/

namespace TrinityCore.Bots.RaidLockout.BossList

open List

/-- The bytes of a literal of the source. -/
def bytesOf (s : String) : List UInt8 := s.toByteArray.data.toList

/-- `','`. -/
def comma : UInt8 := 44

/-- A byte of raid and boss keys. -/
def isKeyByte (c : UInt8) : Bool :=
  (decide (97 ≤ c) && decide (c ≤ 122)) || (decide (48 ≤ c) && decide (c ≤ 57)) || c == 95

/-- `IsValidKey`, of any bytes. -/
def isValidKey (key : List UInt8) : Bool :=
  !key.isEmpty && decide (key.length ≤ 64) && key.all isKeyByte

/-- `std::getline(stream, item, ',')`: the item and what is left; a stream at its end fails. -/
def getLine (stream : List UInt8) : Option (List UInt8 × List UInt8) :=
  if stream.isEmpty then none
  else some (stream.takeWhile (· != comma), (stream.dropWhile (· != comma)).tail)

variable {item rest stream : List UInt8} {items : List (List UInt8)}

theorem length_getLine (h : getLine stream = some (item, rest)) : rest.length < stream.length := by
  rw [getLine] at h
  split at h
  · cases h
  · next hne =>
    cases h
    have hpos : 0 < stream.length := by simpa [length_pos_iff] using hne
    have hdrop := (stream.dropWhile_sublist (· != comma)).length_le
    rw [length_tail]
    omega

/-- The loop of `ParseBossList`: the keys, and the failure. `seen` holds the keys read so far. -/
def readItems (stream : List UInt8) (keys : List (List UInt8)) :
    List (List UInt8) × Option (List UInt8) :=
  match hline : getLine stream with
  | none => (keys, none)
  | some (item, rest) =>
    if !isValidKey item then (keys, some (bytesOf "invalid_boss_key:" ++ item))
    else if keys.contains item then (keys, some (bytesOf "duplicate_boss:" ++ item))
    else readItems rest (keys ++ [item])
  termination_by stream.length
  decreasing_by exact length_getLine hline

/-- `ParseBossList`: the keys, and the failure when it returns false. -/
def parseBossList (text : List UInt8) : List (List UInt8) × Option (List UInt8) :=
  if text = bytesOf "none" then ([], none)
  else if text.isEmpty then ([], some (bytesOf "boss_list_required"))
  else
    match readItems text [] with
    | (keys, some failure) => (keys, some failure)
    | (keys, none) =>
      if text.getLast? = some comma then (keys, some (bytesOf "invalid_boss_key:"))
      else (keys, none)

/-! ### The items of a text -/

/-- Items joined by commas. -/
def join (items : List (List UInt8)) : List UInt8 := [comma].intercalate items

/-- A text up to its end, or up to a comma, is one line. -/
theorem getLine_append (h : comma ∉ item) (rest : List UInt8) :
    getLine (item ++ comma :: rest) = some (item, rest) := by
  have hall : ∀ c ∈ item, (c != comma) = true := by
    intro c hc
    rw [bne_iff_ne]
    rintro rfl
    exact h hc
  rw [getLine, if_neg (by simp), takeWhile_append_of_pos hall, dropWhile_append_of_pos hall]
  simp

theorem getLine_of_not_mem (h : comma ∉ item) (hne : item ≠ []) :
    getLine item = some (item, []) := by
  have hall : ∀ c ∈ item, (c != comma) = true := by
    intro c hc
    rw [bne_iff_ne]
    rintro rfl
    exact h hc
  rw [getLine, if_neg (by simpa using hne), takeWhile_eq_self_iff.mpr hall,
    dropWhile_eq_nil_iff.mpr hall, tail_nil]

/-- A line is what stands before the first comma, or all there is. -/
theorem getLine_eq_some (h : getLine stream = some (item, rest)) :
    stream = item ++ comma :: rest ∨ stream = item ∧ rest = [] ∧ stream ≠ [] := by
  rw [getLine] at h
  split at h
  · cases h
  next hne =>
  cases h
  have hsplit : stream.takeWhile (· != comma) ++ stream.dropWhile (· != comma) = stream :=
    takeWhile_append_dropWhile
  cases hdrop : stream.dropWhile (· != comma) with
  | nil =>
    right
    refine ⟨?_, rfl, by simpa using hne⟩
    rwa [hdrop, append_nil, eq_comm] at hsplit
  | cons c rest =>
    left
    have hc : (c != comma) = false := by
      have hhead := head?_dropWhile_not (· != comma) stream
      simpa [hdrop] using hhead
    have hcomma : c = comma := by simpa using hc
    rw [hdrop, hcomma] at hsplit
    rw [tail_cons, hsplit]

/-- A valid key is not empty and has no comma. -/
theorem not_mem_of_isValidKey {key : List UInt8} (h : isValidKey key = true) :
    key ≠ [] ∧ comma ∉ key := by
  rw [isValidKey, Bool.and_eq_true, Bool.and_eq_true, all_eq_true] at h
  refine ⟨by simpa using h.1.1, ?_⟩
  intro hmem
  exact absurd (h.2 comma hmem) (by decide)

/-- The items are new and valid. -/
def Fresh (keys items : List (List UInt8)) : Prop :=
  (∀ item ∈ items, isValidKey item = true ∧ item ∉ keys) ∧ items.Nodup

/-- Items that are not empty join to a text that is not. -/
theorem join_cons_ne_nil (hne : item ≠ []) (rest : List (List UInt8)) :
    join (item :: rest) ≠ [] := by
  cases rest with
  | nil => simpa [join] using hne
  | cons other rest => simp [join]

theorem join_cons_cons (item other : List UInt8) (rest : List (List UInt8)) :
    join (item :: other :: rest) = item ++ comma :: join (other :: rest) := by
  simp [join]

/-- The last byte of joined keys is no comma. -/
theorem getLast?_join (h : ∀ item ∈ items, isValidKey item = true) :
    (join items).getLast? ≠ some comma := by
  induction items with
  | nil => simp [join]
  | cons item rest ih =>
    intro hlast
    cases rest with
    | nil =>
      rw [join, intercalate_singleton] at hlast
      exact (not_mem_of_isValidKey (h item mem_cons_self)).2 (mem_of_getLast? hlast)
    | cons other rest =>
      have hother := (not_mem_of_isValidKey (h other (by simp))).1
      have hrest := ih fun key hkey => h key (mem_cons_of_mem _ hkey)
      rw [join_cons_cons, getLast?_append, getLast?_cons] at hlast
      cases htail : (join (other :: rest)).getLast? with
      | none => exact join_cons_ne_nil hother rest (getLast?_eq_none_iff.mp htail)
      | some c =>
        rw [htail] at hlast hrest
        simp only [Option.getD_some, Option.some_or] at hlast
        exact hrest hlast

/-- The stream holds the items: joined, or with a comma behind. -/
def Holds (stream : List UInt8) (items : List (List UInt8)) : Prop :=
  stream = join items ∨ items ≠ [] ∧ stream = join items ++ [comma]

/-- What is left of the items behind the first. -/
theorem holds_cons_iff (hline : getLine stream = some (item, rest)) (hcomma : comma ∉ item)
    (hitems : ∀ other ∈ items, other ≠ []) : Holds stream (item :: items) ↔ Holds rest items := by
  cases items with
  | nil =>
    rw [Holds, Holds]
    simp only [join, intercalate_singleton, intercalate_nil]
    rcases getLine_eq_some hline with rfl | ⟨rfl, rfl, -⟩
    · simp
    · simp
  | cons other items =>
    have hne := join_cons_ne_nil (hitems other mem_cons_self) items
    rw [Holds, Holds, join_cons_cons]
    rcases getLine_eq_some hline with rfl | ⟨rfl, rfl, -⟩
    · simp
    · simp [hne.symm]

/-- The first item of a stream is its first line. -/
theorem getLine_of_holds (hne : item ≠ []) (hcomma : comma ∉ item)
    (h : Holds stream (item :: items)) : ∃ rest, getLine stream = some (item, rest) := by
  cases items with
  | nil =>
    simp only [Holds, join, intercalate_singleton] at h
    rcases h with rfl | ⟨-, rfl⟩
    · exact ⟨[], getLine_of_not_mem hcomma hne⟩
    · exact ⟨[], getLine_append hcomma []⟩
  | cons other items =>
    rw [Holds, join_cons_cons, append_assoc, cons_append] at h
    rcases h with rfl | ⟨-, rfl⟩
    · exact ⟨_, getLine_append hcomma _⟩
    · exact ⟨_, getLine_append hcomma _⟩

theorem holds_iff_of_getLine (hline : getLine stream = some (item, rest))
    (hitems : ∀ other ∈ items, isValidKey other = true) :
    Holds stream items ↔ ∃ items', items = item :: items' ∧ Holds rest items' := by
  cases items with
  | nil =>
    have hstream : stream ≠ [] := by
      rintro rfl
      cases hline
    simp [Holds, join, hstream]
  | cons first items =>
    obtain ⟨hne, hcomma⟩ := not_mem_of_isValidKey (hitems first mem_cons_self)
    have hothers : ∀ other ∈ items, other ≠ [] := fun other hother =>
      (not_mem_of_isValidKey (hitems other (mem_cons_of_mem _ hother))).1
    constructor
    · intro h
      obtain ⟨rest', hfirst⟩ := getLine_of_holds hne hcomma h
      cases hline.symm.trans hfirst
      exact ⟨items, rfl, (holds_cons_iff hline hcomma hothers).mp h⟩
    · rintro ⟨items', heq, h⟩
      cases heq
      exact (holds_cons_iff hline hcomma hothers).mpr h

/-! ### The loop -/

theorem readItems_nil (keys : List (List UInt8)) : readItems [] keys = (keys, none) := by
  rw [readItems]
  split
  · rfl
  · next h => cases h

theorem readItems_of_getLine
    (hline : getLine stream = some (item, rest)) (keys : List (List UInt8)) :
    readItems stream keys =
      if !isValidKey item then (keys, some (bytesOf "invalid_boss_key:" ++ item))
      else if keys.contains item then (keys, some (bytesOf "duplicate_boss:" ++ item))
      else readItems rest (keys ++ [item]) := by
  rw [readItems]
  split
  · next h => exact nomatch hline.symm.trans h
  · next h =>
    cases hline.symm.trans h
    rfl

theorem fresh_cons_iff {keys : List (List UInt8)} :
    Fresh keys (item :: items) ↔
      isValidKey item = true ∧ item ∉ keys ∧ Fresh (keys ++ [item]) items := by
  simp only [Fresh, forall_mem_cons, nodup_cons, mem_append, mem_singleton]
  constructor
  · rintro ⟨⟨⟨hvalid, hnew⟩, hrest⟩, hnot, hnodup⟩
    refine ⟨hvalid, hnew, fun other hother => ⟨(hrest other hother).1, ?_⟩, hnodup⟩
    rintro (hold | rfl)
    · exact (hrest other hother).2 hold
    · exact hnot hother
  · rintro ⟨hvalid, hnew, hrest, hnodup⟩
    refine ⟨⟨⟨hvalid, hnew⟩, fun other hother => ⟨(hrest other hother).1, ?_⟩⟩, ?_, hnodup⟩
    · exact fun hold => (hrest other hother).2 (.inl hold)
    · exact fun hmem => (hrest item hmem).2 (.inr rfl)

/-- The loop accepts the streams that hold new and valid items, and adds them. -/
theorem readItems_eq_iff (stream : List UInt8) (keys keys' : List (List UInt8)) :
    readItems stream keys = (keys', none) ↔
      ∃ items, keys' = keys ++ items ∧ Fresh keys items ∧ Holds stream items := by
  induction stream, keys using readItems.induct with
  | case1 stream keys hline =>
    have hstream : stream = [] := by simpa [getLine] using hline
    subst hstream
    rw [readItems_nil]
    constructor
    · intro h
      obtain ⟨rfl, -⟩ := Prod.mk.inj h
      exact ⟨[], by simp, ⟨by simp, nodup_nil⟩, .inl rfl⟩
    · rintro ⟨items, rfl, ⟨hfresh, -⟩, hholds⟩
      cases items with
      | nil => simp
      | cons item rest =>
        have hne := join_cons_ne_nil (not_mem_of_isValidKey (hfresh item (by simp)).1).1 rest
        simp [Holds, hne.symm] at hholds
  | case2 stream keys item rest hline hinvalid =>
    rw [readItems_of_getLine hline, if_pos hinvalid]
    constructor
    · intro h
      exact nomatch (Prod.mk.inj h).2
    · rintro ⟨items, -, hfresh, hholds⟩
      obtain ⟨items, rfl, -⟩ :=
        (holds_iff_of_getLine hline fun other h => (hfresh.1 other h).1).mp hholds
      simp [(fresh_cons_iff.mp hfresh).1] at hinvalid
  | case3 stream keys item rest hline hvalid hseen =>
    rw [readItems_of_getLine hline, if_neg hvalid, if_pos hseen]
    constructor
    · intro h
      exact nomatch (Prod.mk.inj h).2
    · rintro ⟨items, -, hfresh, hholds⟩
      obtain ⟨items, rfl, -⟩ :=
        (holds_iff_of_getLine hline fun other h => (hfresh.1 other h).1).mp hholds
      exact absurd (contains_iff_mem.mp hseen) (fresh_cons_iff.mp hfresh).2.1
  | case4 stream keys item rest hline hvalid hseen ih =>
    rw [readItems_of_getLine hline, if_neg hvalid, if_neg hseen, ih]
    constructor
    · rintro ⟨items, rfl, hfresh, hholds⟩
      have hitem : Fresh keys (item :: items) :=
        fresh_cons_iff.mpr ⟨by simpa using hvalid, by simpa using hseen, hfresh⟩
      refine ⟨item :: items, by simp, hitem, ?_⟩
      exact (holds_iff_of_getLine hline fun other h => (hitem.1 other h).1).mpr ⟨items, rfl, hholds⟩
    · rintro ⟨items, rfl, hfresh, hholds⟩
      obtain ⟨items, rfl, hrest⟩ :=
        (holds_iff_of_getLine hline fun other h => (hfresh.1 other h).1).mp hholds
      exact ⟨items, by simp, (fresh_cons_iff.mp hfresh).2.2, hrest⟩

/-! ### The grammar -/

/-- A text that is a comma list of the keys: at least one, all valid, no two the same. -/
structure ListsKeys (text : List UInt8) (keys : List (List UInt8)) : Prop where
  ne_nil : keys ≠ []
  valid : ∀ key ∈ keys, isValidKey key = true
  nodup : keys.Nodup
  text : join keys = text

/-- `ParseBossList` accepts `none`, without keys, and every other comma list of keys, with its
keys in order. -/
theorem parseBossList_exact (text : List UInt8) (keys : List (List UInt8)) :
    parseBossList text = (keys, none) ↔
      text = bytesOf "none" ∧ keys = [] ∨ text ≠ bytesOf "none" ∧ ListsKeys text keys := by
  rw [parseBossList]
  split
  · next hnone => simp [hnone, eq_comm]
  next hnone =>
  simp only [hnone, false_and, false_or, ne_eq, not_false_eq_true, true_and]
  split
  · next hempty =>
    have htext : text = [] := by simpa using hempty
    subst htext
    constructor
    · intro h
      exact nomatch (Prod.mk.inj h).2
    · intro h
      obtain ⟨key, rest, rfl⟩ := exists_cons_of_ne_nil h.ne_nil
      have hkey := (not_mem_of_isValidKey (h.valid key mem_cons_self)).1
      exact absurd h.text (join_cons_ne_nil hkey rest)
  next hempty =>
  have hne : text ≠ [] := by simpa using hempty
  have hread (keys : List (List UInt8)) :
      readItems text [] = (keys, none) ↔ Fresh [] keys ∧ Holds text keys := by
    rw [readItems_eq_iff]
    simp only [nil_append, exists_eq_left']
  have hlists (h : ListsKeys text keys) : readItems text [] = (keys, none) :=
    (hread keys).mpr ⟨⟨fun key hkey => ⟨h.valid key hkey, by simp⟩, h.nodup⟩, .inl h.text.symm⟩
  split
  · next failed failure hfailed =>
    constructor
    · intro h
      exact nomatch (Prod.mk.inj h).2
    · intro h
      exact nomatch (Prod.mk.inj (hfailed.symm.trans (hlists h))).2
  next found hfound =>
  obtain ⟨⟨hvalid, hnodup⟩, hholds⟩ := (hread found).mp hfound
  split
  · next hlast =>
    constructor
    · intro h
      exact nomatch (Prod.mk.inj h).2
    · intro h
      rw [← h.text] at hlast
      exact absurd hlast (getLast?_join h.valid)
  · next hlast =>
    constructor
    · intro h
      obtain ⟨rfl, -⟩ := Prod.mk.inj h
      -- a comma behind the last item would be the last byte of the text
      have htext : text = join found := by
        apply hholds.resolve_right
        rintro ⟨-, htext⟩
        exact hlast (by simp [htext])
      refine ⟨?_, fun key hkey => (hvalid key hkey).1, hnodup, htext.symm⟩
      rintro rfl
      exact hne htext
    · intro h
      exact hfound.symm.trans (hlists h)

end TrinityCore.Bots.RaidLockout.BossList
