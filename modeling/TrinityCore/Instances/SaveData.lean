import TrinityCore.Instances.BossStates

/-!
# The save data of an instance

The reader of boss states extracts into a variable without a value, which keeps what it happens to
hold where the data has ended. The bosses that are done are restored exactly when the data has a
state for every boss.
-/

namespace TrinityCore.Instances

open ByteStream InstanceScript List

variable {script : InstanceScript} {creatures : ObjectGuid → Option Creature}

/-! ### Text of save data -/

/-- Headers, each after some spaces. -/
def headerText (headers : List (Nat × UInt8)) : List UInt8 :=
  headers.flatMap fun header => replicate header.1 32 ++ [header.2]

/-- Boss states, each after some spaces. -/
def stateText (states : List (Nat × EncounterState)) : List UInt8 :=
  states.flatMap fun state => replicate state.1 32 ++ decimal state.2.toNat

/-- Two states have at least a space between them. -/
def Separated (states : List (Nat × EncounterState)) : Prop := ∀ state ∈ states.tail, 0 < state.1

theorem EncounterState.toNat_lt (state : EncounterState) : state.toNat < 2 ^ 32 := by
  cases state <;> decide

variable {headers : List (Nat × UInt8)} {states : List (Nat × EncounterState)}

/-- Headers that are there are read over. -/
theorem readSaveDataHeaders_text (buff : UInt8)
    (halpha : ∀ header ∈ headers, isAlpha header.2 = true) (rest : List UInt8) :
    readSaveDataHeaders buff (headers.map Prod.snd)
      (some (headerText headers ++ rest)) = some (some rest) := by
  induction headers with
  | nil => rfl
  | cons header headers ih =>
    have hspace := isSpace_eq_false_of_isAlpha (halpha header mem_cons_self)
    have hchar : extractChar buff
        (some (headerText (header :: headers) ++ rest)) =
        (header.2, some (headerText headers ++ rest)) := by
      unfold headerText extractChar
      dsimp only
      rw [flatMap_cons, append_assoc, append_assoc, readChar_replicate,
        singleton_append, readChar_cons hspace]
    rw [map_cons, readSaveDataHeaders, hchar]
    dsimp only
    rw [if_neg (not_not.mpr rfl)]
    exact ih fun other hother => halpha other (mem_cons_of_mem _ hother)

/-! ### The values read -/

/-- The values that the rounds for some bosses read. -/
def buffs (uninitialised : Nat → UInt32) : List Nat → Option (List UInt8) → List (Nat × UInt32)
  | [], _ => []
  | bossId :: ids, data =>
    let (buff, data) := extractUInt32 (uninitialised bossId) data
    (bossId, buff) :: buffs uninitialised ids data

variable (uninitialised : Nat → UInt32) (ids : List Nat)

theorem map_fst_buffs (data : Option (List UInt8)) :
    (buffs uninitialised ids data).map Prod.fst = ids := by
  induction ids generalizing data with
  | nil => rfl
  | cons bossId ids ih => exact congrArg (bossId :: ·) (ih _)

/-- After the end of the data every variable keeps what it holds. -/
theorem buffs_none :
    buffs uninitialised ids none = ids.map fun bossId => (bossId, uninitialised bossId) := by
  induction ids with
  | nil => rfl
  | cons bossId ids ih => exact congrArg ((bossId, uninitialised bossId) :: ·) ih

theorem buffs_spaces (trailing : Nat) :
    buffs uninitialised ids (some (replicate trailing 32)) =
      ids.map fun bossId => (bossId, uninitialised bossId) := by
  cases ids with
  | nil => rfl
  | cons bossId ids =>
    unfold buffs
    rw [extractUInt32_spaces]
    dsimp only
    rw [buffs_none]
    rfl

/-- A text of states gives its states to the first bosses, and nothing to the others. -/
theorem buffs_text {ids : List Nat} (hlength : states.length ≤ ids.length)
    (hseparated : Separated states) (trailing : Nat) :
    buffs uninitialised ids (some (stateText states ++ replicate trailing 32)) =
      (ids.zip states).map (fun entry => (entry.1, UInt32.ofNat entry.2.2.toNat)) ++
        (ids.drop states.length).map fun bossId => (bossId, uninitialised bossId) := by
  induction states generalizing ids with
  | nil => simp [stateText, buffs_spaces]
  | cons state states ih =>
    cases ids with
    | nil => exact absurd hlength (by simp)
    | cons bossId ids =>
      -- What follows a state is the end, or a space.
      have hnext : ∀ c ∈ (stateText states ++ replicate trailing 32).head?,
          isDigit c = false := by
        intro c hc
        have hspace : c = 32 := by
          cases states with
          | nil =>
            have hmem : c ∈ replicate trailing 32 := mem_of_mem_head? hc
            exact eq_of_mem_replicate hmem
          | cons next states =>
            have hgap : 0 < next.1 := hseparated next mem_cons_self
            obtain ⟨gap, hsucc⟩ := Nat.exists_eq_succ_of_ne_zero (Nat.ne_of_gt hgap)
            unfold stateText at hc
            rw [flatMap_cons, hsucc, replicate_succ] at hc
            exact (Option.some_injective _ hc).symm
        rw [hspace]
        rfl
      have hextract : extractUInt32 (uninitialised bossId)
          (some (stateText (state :: states) ++ replicate trailing 32)) =
          (UInt32.ofNat state.2.toNat,
            some (stateText states ++ replicate trailing 32)) := by
        unfold stateText
        rw [flatMap_cons, append_assoc, append_assoc]
        exact extractUInt32_decimal _ _ state.2.toNat_lt hnext
      have hrest : Separated states := fun other hother =>
        hseparated other (mem_of_mem_tail hother)
      unfold buffs
      rw [hextract]
      dsimp only
      rw [ih (Nat.le_of_succ_le_succ hlength) hrest]
      rfl

/-! ### The bosses restored -/

/-- The state that a value read stands for. -/
def readState (buff : UInt32) : EncounterState :=
  if buff = 1 ∨ buff = 2 ∨ buff = 4 then .notStarted else .ofUInt32 buff

theorem readState_toNat (state : EncounterState) :
    readState (UInt32.ofNat state.toNat) = .done ↔ state = .done := by
  cases state <;> decide

theorem getBossState_readBossState {id : Nat} (buff : UInt32)
    (h : script.getBossState id = .toBeDecided) (hid : id < script.bosses.length) (i : Nat) :
    (script.readBossState creatures id buff).getBossState i =
      if i = id then readState buff else script.getBossState i := by
  unfold readBossState readState
  dsimp only
  split
  · rw [if_pos (by decide), getBossState_initialize h hid]
    rfl
  · split
    · exact getBossState_initialize h hid i
    · next hlarge =>
      have hdecided : EncounterState.ofUInt32 buff = .toBeDecided := by
        have hle : 5 ≤ buff.toNat := UInt32.le_iff_toNat_le.mp (UInt32.not_lt.mp hlarge)
        unfold EncounterState.ofUInt32
        split <;> first | omega | rfl
      split
      · next heq => rw [heq, h, hdecided]
      · rfl

theorem length_readBossState (id : Nat) (buff : UInt32) :
    (script.readBossState creatures id buff).bosses.length = script.bosses.length := by
  unfold readBossState
  generalize (if buff = 1 ∨ buff = 2 ∨ buff = 4 then (0 : UInt32) else buff) = buff
  dsimp only
  split
  · exact length_setBossState ..
  · rfl

/-- The loop reads the values in order and stores them in order. -/
theorem foldl_read_eq (data : Option (List UInt8)) :
    (ids.foldl (fun read bossId =>
        ((read.1.readBossState creatures bossId
          (extractUInt32 (uninitialised bossId) read.2).1),
          (extractUInt32 (uninitialised bossId) read.2).2)) (script, data)).1 =
      (buffs uninitialised ids data).foldl
        (fun script entry => script.readBossState creatures entry.1 entry.2) script := by
  induction ids generalizing script data with
  | nil => rfl
  | cons bossId ids ih => exact ih _

/-- Every boss that is read for the first time gets the state read. -/
theorem getBossState_foldl {entries : List (Nat × UInt32)}
    (hnodup : (entries.map Prod.fst).Nodup)
    (hfresh : ∀ entry ∈ entries, script.getBossState entry.1 = .toBeDecided)
    (hlength : ∀ entry ∈ entries, entry.1 < script.bosses.length) :
    (∀ entry ∈ entries, (entries.foldl
      (fun script entry => script.readBossState creatures entry.1 entry.2)
        script).getBossState entry.1 = readState entry.2) ∧
    ∀ i, i ∉ entries.map Prod.fst → (entries.foldl
      (fun script entry => script.readBossState creatures entry.1 entry.2)
        script).getBossState i = script.getBossState i := by
  induction entries generalizing script with
  | nil => exact ⟨nofun, fun _ _ => rfl⟩
  | cons first entries ih =>
    rw [map_cons, nodup_cons] at hnodup
    have hfirst : ∀ i, (script.readBossState creatures first.1 first.2).getBossState i =
        if i = first.1 then readState first.2 else script.getBossState i :=
      getBossState_readBossState first.2 (hfresh first mem_cons_self)
        (hlength first mem_cons_self)
    have hne : ∀ entry ∈ entries, entry.1 ≠ first.1 := fun entry hentry heq =>
      hnodup.1 (heq ▸ mem_map_of_mem hentry)
    have hfresh' : ∀ entry ∈ entries,
        (script.readBossState creatures first.1 first.2).getBossState entry.1 = .toBeDecided := by
      intro entry hentry
      rw [hfirst, if_neg (hne entry hentry)]
      exact hfresh entry (mem_cons_of_mem _ hentry)
    have hlength' : ∀ entry ∈ entries,
        entry.1 < (script.readBossState creatures first.1 first.2).bosses.length := by
      intro entry hentry
      rw [length_readBossState]
      exact hlength entry (mem_cons_of_mem _ hentry)
    obtain ⟨hread, hother⟩ := ih hnodup.2 hfresh' hlength'
    constructor
    · intro entry hentry
      cases mem_cons.mp hentry with
      | inl heq =>
        subst heq
        rw [foldl_cons, hother _ hnodup.1, hfirst, if_pos rfl]
      | inr hmem => exact hread entry hmem
    · intro i hi
      rw [map_cons, mem_cons, not_or] at hi
      rw [foldl_cons, hother i hi.2, hfirst, if_neg hi.1]

/-- The value that is read for a boss. -/
def savedState (states : List (Nat × EncounterState)) (i : Nat) : UInt32 :=
  match states[i]? with
  | some state => UInt32.ofNat state.2.toNat
  | none => uninitialised i

theorem mem_entries (uninitialised : Nat → UInt32) {n : Nat} (states : List (Nat × EncounterState))
    (hi : i < n) :
    (i, savedState uninitialised states i) ∈
      ((range n).zip states).map (fun entry => (entry.1, UInt32.ofNat entry.2.2.toNat)) ++
        ((range n).drop states.length).map fun bossId => (bossId, uninitialised bossId) := by
  unfold savedState
  rw [mem_append]
  by_cases hlt : i < states.length
  · left
    rw [getElem?_eq_getElem hlt]
    apply mem_map.mpr
    refine ⟨(i, states[i]), ?_, rfl⟩
    apply mem_iff_getElem.mpr
    refine ⟨i, by simp [hi, hlt], ?_⟩
    simp
  · right
    rw [getElem?_eq_none (Nat.le_of_not_lt hlt)]
    apply mem_map.mpr
    refine ⟨i, ?_, rfl⟩
    apply mem_iff_getElem.mpr
    refine ⟨i - states.length, by simp; omega, ?_⟩
    rw [getElem_drop, getElem_range]
    omega

/-- A script that has no boss states yet. -/
def Fresh (script : InstanceScript) : Prop :=
  ∀ bossInfo ∈ script.bosses, bossInfo.state = .toBeDecided

theorem Fresh.getBossState (h : Fresh script) (i : Nat) :
    script.getBossState i = .toBeDecided := by
  unfold InstanceScript.getBossState
  split
  · next bossInfo hboss => exact h bossInfo (mem_of_getElem? hboss)
  · rfl

/-- Every boss gets the state that is read for it. -/
theorem getBossState_load (uninitialised : InstanceScript.Uninitialised) (hfresh : Fresh script)
    (hheaders : script.headers = headers.map Prod.snd)
    (halpha : ∀ header ∈ headers, isAlpha header.2 = true)
    (hlength : states.length ≤ script.bosses.length) (hseparated : Separated states)
    (trailing : Nat) (i : Nat) :
    (script.load creatures uninitialised
      (headerText headers ++ (stateText states ++ replicate trailing 32))).getBossState i =
      if i < script.bosses.length then readState (savedState uninitialised.state states i)
      else .toBeDecided := by
  have hrange : states.length ≤ (range script.bosses.length).length := by simpa using hlength
  unfold load
  rw [hheaders, readSaveDataHeaders_text _ halpha]
  dsimp only
  unfold readSaveDataBossStates
  rw [(sameBosses_updateSpawnGroups _).getBossState, foldl_read_eq]
  have hids := map_fst_buffs uninitialised.state (range script.bosses.length)
    (some (stateText states ++ replicate trailing 32))
  rw [buffs_text uninitialised.state hrange hseparated trailing] at hids ⊢
  have hmem := fun hi => @mem_entries i uninitialised.state script.bosses.length states hi
  generalize ((range script.bosses.length).zip states).map
    (fun entry => (entry.1, UInt32.ofNat entry.2.2.toNat)) ++
      ((range script.bosses.length).drop states.length).map
        (fun bossId => (bossId, uninitialised.state bossId)) = entries at hids hmem ⊢
  have hbound : ∀ entry ∈ entries, entry.1 < script.bosses.length := by
    intro entry hentry
    apply mem_range.mp
    rw [← hids]
    exact mem_map_of_mem hentry
  obtain ⟨hread, hother⟩ := @getBossState_foldl script creatures entries
    (hids ▸ nodup_range) (fun entry _ => hfresh.getBossState entry.1) hbound
  split
  · next hi => exact hread _ (hmem hi)
  · next hi =>
    rw [hother i (by rw [hids]; simpa using hi)]
    exact hfresh.getBossState i

/-! ### The save data of a script -/

/-- Separators after the parts are separators before the parts. -/
theorem cons_flatMap {α : Type} (f : α → List UInt8) (parts : List α) :
    32 :: parts.flatMap (fun part => f part ++ [32]) =
      parts.flatMap (fun part => replicate 1 32 ++ f part) ++ [32] := by
  induction parts with
  | nil => rfl
  | cons part parts ih =>
    rw [flatMap_cons, flatMap_cons, append_assoc, append_assoc, ← ih]
    simp

theorem cons_getSaveData (saved : InstanceScript) :
    32 :: saved.getSaveData =
      headerText (saved.headers.map fun header => (1, header)) ++
        (stateText (saved.bosses.map fun bossInfo => (1, bossInfo.state)) ++
          replicate 1 32) := by
  have hheaders := cons_flatMap (fun header : UInt8 => [header]) saved.headers
  have hbosses := cons_flatMap (fun bossInfo : BossInfo =>
    decimal bossInfo.state.toNat) saved.bosses
  unfold headerText stateText
  rw [flatMap_map, flatMap_map]
  calc 32 :: saved.getSaveData
      = (32 :: saved.headers.flatMap fun header => [header] ++ [32]) ++
          saved.bosses.flatMap fun bossInfo =>
            decimal bossInfo.state.toNat ++ [32] := rfl
    _ = saved.headers.flatMap (fun header => replicate 1 32 ++ [header]) ++
          (32 :: saved.bosses.flatMap fun bossInfo =>
            decimal bossInfo.state.toNat ++ [32]) := by
      rw [hheaders, append_assoc, singleton_append]
    _ = _ := by
      rw [hbosses]
      rfl

/-- A space before the data is read over. -/
theorem load_cons (uninitialised : InstanceScript.Uninitialised) (data : List UInt8) (i : Nat) :
    (script.load creatures uninitialised (32 :: data)).getBossState i =
      (script.load creatures uninitialised data).getBossState i := by
  have hskip : skipSpaces (32 :: data) = skipSpaces data :=
    skipSpaces_replicate 1 data
  have hchar : ∀ before, extractChar before (some (32 :: data)) =
      extractChar before (some data) := by
    intro before
    unfold extractChar readChar
    dsimp only
    rw [hskip]
  have huint : ∀ before, extractUInt32 before (some (32 :: data)) =
      extractUInt32 before (some data) := by
    intro before
    unfold extractUInt32 readUInt32
    dsimp only
    rw [hskip]
  unfold load
  cases hheaders : script.headers with
  | cons header headers =>
    unfold readSaveDataHeaders
    rw [hchar]
  | nil =>
    -- The space is in front of the states.
    unfold readSaveDataHeaders readSaveDataBossStates
    dsimp only
    rw [(sameBosses_updateSpawnGroups _).getBossState,
      (sameBosses_updateSpawnGroups _).getBossState, foldl_read_eq, foldl_read_eq]
    cases range script.bosses.length with
    | nil => rfl
    | cons bossId ids =>
      unfold buffs
      rw [huint]

/-! ### Finished bosses -/

/-- The script has exactly these bosses done, and keeps them done. -/
def RestoresDone (loaded : InstanceScript) (states : List EncounterState) : Prop :=
  (∀ i, loaded.getBossState i = .done ↔ states[i]? = some .done) ∧
    ∀ calls i, loaded.getBossState i = .done →
      (StateMachine.run call loaded calls).getBossState i = .done

theorem restoresDone_iff {loaded : InstanceScript} {states : List EncounterState} :
    RestoresDone loaded states ↔
      ∀ i, loaded.getBossState i = .done ↔ states[i]? = some .done :=
  and_iff_left fun calls _ hdone => done_run hdone calls

/-- A boss that is read is done when its state in the data is, or, without one, when the variable
it is read into says so. -/
theorem getBossState_load_eq_done_iff (uninitialised : InstanceScript.Uninitialised)
    (hfresh : Fresh script) (hheaders : script.headers = headers.map Prod.snd)
    (halpha : ∀ header ∈ headers, isAlpha header.2 = true)
    (hlength : states.length ≤ script.bosses.length) (hseparated : Separated states)
    (trailing : Nat) (i : Nat) :
    (script.load creatures uninitialised (headerText headers ++
      (stateText states ++ replicate trailing 32))).getBossState i = .done ↔
      (states.map Prod.snd)[i]? = some .done ∨
        states.length ≤ i ∧ i < script.bosses.length ∧
          readState (uninitialised.state i) = .done := by
  rw [getBossState_load uninitialised hfresh hheaders halpha hlength hseparated, getElem?_map]
  unfold savedState
  by_cases hlt : i < states.length
  · rw [getElem?_eq_getElem hlt, if_pos (Nat.lt_of_lt_of_le hlt hlength), Option.map_some,
      Option.some_inj]
    dsimp only
    rw [readState_toNat]
    simp [Nat.not_le.mpr hlt]
  · rw [getElem?_eq_none (Nat.le_of_not_lt hlt)]
    by_cases hi : i < script.bosses.length <;> simp [hi, Nat.le_of_not_lt hlt]

theorem restoresDone_load (uninitialised : InstanceScript.Uninitialised) (hfresh : Fresh script)
    {headers : List (Nat × UInt8)} {states : List (Nat × EncounterState)}
    (hheaders : script.headers = headers.map Prod.snd)
    (halpha : ∀ header ∈ headers, isAlpha header.2 = true)
    (hlength : states.length = script.bosses.length) (hseparated : Separated states)
    (trailing : Nat) :
    RestoresDone (script.load creatures uninitialised
      (headerText headers ++ (stateText states ++ replicate trailing 32)))
        (states.map Prod.snd) := by
  apply restoresDone_iff.mpr
  intro i
  rw [getBossState_load_eq_done_iff uninitialised hfresh hheaders halpha (Nat.le_of_eq hlength)
    hseparated]
  apply or_iff_left
  omega

/-- What a script saves restores its finished bosses. -/
theorem restoresDone_load_getSaveData (uninitialised : InstanceScript.Uninitialised)
    (hfresh : Fresh script) (halpha : ∀ header ∈ script.headers, isAlpha header = true)
    {saved : InstanceScript} (hheaders : saved.headers = script.headers)
    (hbosses : saved.bosses.length = script.bosses.length) :
    RestoresDone (script.load creatures uninitialised saved.getSaveData)
      (saved.bosses.map BossInfo.state) := by
  have hload := @restoresDone_load script creatures uninitialised hfresh
    (saved.headers.map fun header => (1, header))
    (saved.bosses.map fun bossInfo => (1, bossInfo.state)) (by simp [hheaders])
    (by simpa [hheaders] using halpha) (by simpa using hbosses)
    (by
      intro state hstate
      obtain ⟨bossInfo, -, rfl⟩ := mem_map.mp (mem_of_mem_tail hstate)
      exact Nat.one_pos) 1
  rw [← cons_getSaveData, restoresDone_iff] at hload
  apply restoresDone_iff.mpr
  intro i
  rw [← load_cons, hload i, map_map]
  rfl

/-- What a script saves restores its finished bosses, and so does every data of the headers and
boss states if and only if it has a state for every boss. -/
theorem load_restoresDone_iff (script : InstanceScript) (hfresh : Fresh script)
    (headers : List (Nat × UInt8)) (states : List (Nat × EncounterState)) (trailing : Nat)
    (hheaders : script.headers = headers.map Prod.snd)
    (halpha : ∀ header ∈ headers, ByteStream.isAlpha header.2 = true)
    (hlength : states.length ≤ script.bosses.length) (hseparated : Separated states) :
    (∀ uninitialised creatures (saved : InstanceScript), saved.headers = script.headers →
      saved.bosses.length = script.bosses.length →
      RestoresDone (script.load creatures uninitialised saved.getSaveData)
        (saved.bosses.map BossInfo.state)) ∧
    ((∀ uninitialised creatures,
      RestoresDone (script.load creatures uninitialised
        (headerText headers ++ (stateText states ++ List.replicate trailing 32)))
          (states.map Prod.snd)) ↔
      states.length = script.bosses.length) := by
  constructor
  · intro uninitialised creatures saved hsaved hbosses
    apply restoresDone_load_getSaveData uninitialised hfresh _ hsaved hbosses
    intro header hheader
    rw [hheaders] at hheader
    obtain ⟨pair, hpair, rfl⟩ := mem_map.mp hheader
    exact halpha pair hpair
  · constructor
    · intro hrestores
      by_contra hne
      have hlt : states.length < script.bosses.length := Nat.lt_of_le_of_ne hlength hne
      -- The variable of the first boss without a state may hold the number of DONE.
      have hload := (hrestores ⟨0, fun _ => 3⟩ fun _ => none).1 states.length
      rw [getBossState_load_eq_done_iff _ hfresh hheaders halpha hlength hseparated] at hload
      have hdone := hload.mp (Or.inr ⟨Nat.le_refl _, hlt, rfl⟩)
      simp at hdone
    · intro hall uninitialised creatures
      exact restoresDone_load uninitialised hfresh hheaders halpha hall hseparated trailing

/-- A script with one header and two bosses, and the data of one. -/
theorem load_restoresDone_iff_one :
    ¬∀ uninitialised creatures,
      RestoresDone ((({ headers := [66] } : InstanceScript).setBossNumber 2).load creatures
        uninitialised (headerText [(0, 66)] ++ (stateText [(1, .done)] ++ List.replicate 1 32)))
          [.done] := by
  have h := load_restoresDone_iff (({ headers := [66] } : InstanceScript).setBossNumber 2)
    (by unfold Fresh; decide) [(0, 66)] [(1, .done)] 1 rfl (by decide) (by decide) (by
      unfold Separated
      decide)
  exact fun hrestores => absurd (h.2.mp hrestores) (by decide)

/-- The data `B 3` finishes the second of two bosses too when the variable happens to hold 3. -/
theorem load_finishes_missing_boss :
    ¬RestoresDone ((({ headers := [66] } : InstanceScript).setBossNumber 2).load (fun _ => none)
      ⟨0, fun _ => 3⟩ [66, 32, 51, 32]) [.done] := by
  intro hrestores
  have hdone : ((({ headers := [66] } : InstanceScript).setBossNumber 2).load (fun _ => none)
      ⟨0, fun _ => 3⟩ [66, 32, 51, 32]).getBossState 1 = .done := by
    decide +kernel
  have hsaved := (hrestores.1 1).mp hdone
  exact absurd hsaved (by decide)

end TrinityCore.Instances
