import TrinityCore.Spells.CategoryCooldowns

/-!
# What an interrupt shortens

`LockSpellSchool` sets the end of every school it locks, whatever that was, and stores the
entries of the silenced spells anew if their remaining cooldown is shorter than the lockout. A
school can be locked for longer already, the entry stored anew can be on hold, and a category
cooldown can refer to it. Where none of this is the case nothing gets shorter.
-/

namespace TrinityCore.Spells

open NodeMap StateMachine

variable {data : GameData} {now : Time} {h h' : SpellHistory}
  {schoolMask lockoutTime : UInt32} {spellId : UInt32}

variable {spellInfo : SpellInfo} {spells : List UInt32}

namespace SpellHistory

/-- A lockout that starts now lasts as long as it is given. -/
theorem remainingUntil_lockout (now : Time) (lockoutTime : UInt32) :
    remainingUntil now (now + milliseconds lockoutTime.toNat) = lockoutTime := by
  have hle : ¬now + milliseconds lockoutTime.toNat < now := by
    unfold milliseconds
    have hnonneg : (0 : Int) ≤ lockoutTime.toNat := Int.natCast_nonneg _
    exact Int.not_lt.mpr (Int.le_add_of_nonneg_right (by omega))
  unfold remainingUntil
  rw [if_neg hle, Int.add_comm now, Int.add_sub_cancel]
  unfold milliseconds
  rw [Int.mul_ediv_cancel _ (by decide), Int.toNat_natCast, UInt32.ofNat_toNat]

/-- What ends now has nothing left. -/
theorem remainingUntil_self (now : Time) : remainingUntil now now = 0 := by
  unfold remainingUntil
  rw [if_neg (Int.lt_irrefl now), Int.sub_self]
  rfl

/-- Nothing is shorter than before: no school is locked for a shorter time, no spell and no
category has less of its cooldown left, and no cooldown has stopped being on hold. -/
structure NeverShortens (data : GameData) (now : Time) (h h' : SpellHistory) : Prop where
  lockouts : ∀ i, h.schoolLockouts i ≤ h'.schoolLockouts i
  spells : ∀ spellInfo, data.getSpellInfo spellInfo.id = some spellInfo →
    h.getRemainingSpellCooldown now spellInfo ≤ h'.getRemainingSpellCooldown now spellInfo
  withCategory : ∀ spellInfo, data.getSpellInfo spellInfo.id = some spellInfo →
    ∀ r, h.getRemainingCooldown now spellInfo = .ok r →
      ∃ r', h'.getRemainingCooldown now spellInfo = .ok r' ∧ r ≤ r'
  categories : ∀ spellInfo r, h.getRemainingCategoryCooldown now spellInfo = .ok r →
    ∃ r', h'.getRemainingCategoryCooldown now spellInfo = .ok r' ∧ r ≤ r'
  onHold : ∀ spellId node, h.spellCooldowns.find spellId = some node → node.value.onHold = true →
    ∃ node', h'.spellCooldowns.find spellId = some node' ∧ node'.value.onHold = true

theorem NeverShortens.refl (data : GameData) (now : Time) (h : SpellHistory) :
    NeverShortens data now h h where
  lockouts := fun _ => le_rfl
  spells := fun _ _ => UInt32.le_refl _
  withCategory := fun _ _ r hr => ⟨r, hr, UInt32.le_refl _⟩
  categories := fun _ r hr => ⟨r, hr, UInt32.le_refl _⟩
  onHold := fun _ node hnode hhold => ⟨node, hnode, hhold⟩

theorem NeverShortens.trans {t : SpellHistory} (hfirst : NeverShortens data now h t)
    (hsecond : NeverShortens data now t h') : NeverShortens data now h h' where
  lockouts := fun i => le_trans (hfirst.lockouts i) (hsecond.lockouts i)
  spells := fun spellInfo hinfo =>
    UInt32.le_trans (hfirst.spells spellInfo hinfo) (hsecond.spells spellInfo hinfo)
  withCategory := by
    intro spellInfo hinfo r hr
    obtain ⟨r₁, hr₁, hle₁⟩ := hfirst.withCategory spellInfo hinfo r hr
    obtain ⟨r₂, hr₂, hle₂⟩ := hsecond.withCategory spellInfo hinfo r₁ hr₁
    exact ⟨r₂, hr₂, UInt32.le_trans hle₁ hle₂⟩
  categories := by
    intro spellInfo r hr
    obtain ⟨r₁, hr₁, hle₁⟩ := hfirst.categories spellInfo r hr
    obtain ⟨r₂, hr₂, hle₂⟩ := hsecond.categories spellInfo r₁ hr₁
    exact ⟨r₂, hr₂, UInt32.le_trans hle₁ hle₂⟩
  onHold := by
    intro spellId node hnode hhold
    obtain ⟨node₁, hnode₁, hhold₁⟩ := hfirst.onHold spellId node hnode hhold
    exact hsecond.onHold spellId node₁ hnode₁ hhold₁

/-! ### One spell -/

/-- The lockout stores the entry of the spell anew: the spell is silenced and its own cooldown
has less left than the lockout lasts. -/
def Relocked (data : GameData) (now : Time) (schoolMask lockoutTime : UInt32) (h : SpellHistory)
    (spellId : UInt32) (node : Node CooldownEntry) : Prop :=
  h.spellCooldowns.find spellId = some node ∧
    remainingUntil now node.value.cooldownEnd < lockoutTime ∧
    ∃ spellInfo, data.getSpellInfo spellId = some spellInfo ∧ spellInfo.silencedBy schoolMask = true

/-- If the entry of the spell is stored anew, it is not on hold, and no category cooldown that
refers to it has a millisecond left. -/
def LocksSafely (data : GameData) (now : Time) (schoolMask lockoutTime : UInt32)
    (h : SpellHistory) (spellId : UInt32) : Prop :=
  ∀ node, Relocked data now schoolMask lockoutTime h spellId node →
    node.value.onHold = false ∧
      ∀ c, h.categoryCooldowns.lookup c = some node.ref →
        remainingUntil now node.value.categoryEnd = 0

/-- The entry a lockout stores. -/
abbrev lockSpellEntry (h : SpellHistory) (now : Time) (spellId lockoutTime : UInt32) :
    SpellHistory :=
  h.addCooldown spellId 0 (now + milliseconds lockoutTime.toNat) 0 now false

/-- A round stores the entry of a spell that had less left than the lockout lasts, or does
nothing. -/
theorem lockSpell_eq (hstep : lockSpell data now schoolMask lockoutTime h spellId = .ok h') :
    h' = h ∨
    (h' = h.lockSpellEntry now spellId lockoutTime ∧
      ∃ spellInfo r, data.getSpellInfo spellId = some spellInfo ∧
        spellInfo.silencedBy schoolMask = true ∧
        h.getRemainingCooldown now spellInfo = .ok r ∧ r < lockoutTime) := by
  unfold lockSpell at hstep
  split at hstep
  · cases hstep
  · next spellInfo hinfo =>
    split at hstep
    · cases hstep
      exact .inl rfl
    · next hsilenced =>
      split at hstep
      · cases hstep
      · next r hr =>
        cases hstep
        split
        · next hlt =>
          have hs : spellInfo.silencedBy schoolMask = true := by simpa using hsilenced
          exact .inr ⟨rfl, spellInfo, r, hinfo, hs, hr, hlt⟩
        · exact .inl rfl

/-- A round does not touch the entries of other spells, nor the category cooldowns. -/
theorem lockSpell_frame (hstep : lockSpell data now schoolMask lockoutTime h spellId = .ok h') :
    h'.categoryCooldowns = h.categoryCooldowns ∧ h'.schoolLockouts = h.schoolLockouts ∧
      ∀ s, s ≠ spellId → h'.spellCooldowns.find s = h.spellCooldowns.find s := by
  obtain rfl | ⟨rfl, -⟩ := lockSpell_eq hstep
  · exact ⟨rfl, rfl, fun _ _ => rfl⟩
  · exact ⟨rfl, rfl, fun s hs => find_write_of_ne hs⟩

/-- A spell without an entry of its own has the cooldown of its category. -/
theorem getRemainingCooldown_of_find_none (hnone : h.spellCooldowns.find spellInfo.id = none) :
    h.getRemainingCooldown now spellInfo = h.getRemainingCategoryCooldown now spellInfo := by
  unfold getRemainingCooldown
  rw [hnone]
  rfl

/-- What a category cooldown has left after an entry it may refer to was stored anew. -/
theorem deref_lockSpellEntry {ref : Nat} {e : CooldownEntry}
    (hsafe : ∀ node, h.spellCooldowns.find spellId = some node → node.ref = ref →
      remainingUntil now node.value.categoryEnd = 0)
    (he : h.spellCooldowns.deref ref = some e) :
    ∃ e', (h.lockSpellEntry now spellId lockoutTime).spellCooldowns.deref ref = some e' ∧
      remainingUntil now e.categoryEnd ≤ remainingUntil now e'.categoryEnd := by
  obtain ⟨s, node, hnode, rfl, rfl⟩ := find_of_deref he
  refine ⟨_, deref_write_of_find hnode, ?_⟩
  split
  · next heq =>
    subst heq
    rw [hsafe node hnode rfl]
    exact UInt32.zero_le
  · exact UInt32.le_refl _

/-- A spell whose entry is stored anew has as much left as the lockout lasts. -/
theorem remaining_lockSpellEntry (h : SpellHistory) (hid : spellInfo.id = spellId) :
    (h.lockSpellEntry now spellId lockoutTime).getRemainingSpellCooldown now spellInfo =
        lockoutTime ∧
      (h.lockSpellEntry now spellId lockoutTime).getRemainingCooldown now spellInfo =
        .ok lockoutTime := by
  have hfind : (h.lockSpellEntry now spellId lockoutTime).spellCooldowns.find spellId =
      some ⟨_, _⟩ := find_write_self
  unfold getRemainingSpellCooldown getRemainingCooldown
  rw [hid, hfind]
  exact ⟨remainingUntil_lockout now lockoutTime,
    congrArg Except.ok (remainingUntil_lockout now lockoutTime)⟩

/-- Storing the entry of a spell anew shortens nothing if that is safe. -/
theorem neverShortens_lockSpellEntry {r : UInt32}
    (hinfo : data.getSpellInfo spellId = some spellInfo)
    (hsilenced : spellInfo.silencedBy schoolMask = true)
    (hr : h.getRemainingCooldown now spellInfo = .ok r) (hlt : r < lockoutTime)
    (hsafe : LocksSafely data now schoolMask lockoutTime h spellId) :
    NeverShortens data now h (h.lockSpellEntry now spellId lockoutTime) := by
  have hid : spellInfo.id = spellId := data.id_eq spellId spellInfo hinfo
  have hown : ∀ node, h.spellCooldowns.find spellId = some node →
      remainingUntil now node.value.cooldownEnd = r := by
    intro node hnode
    unfold getRemainingCooldown at hr
    rw [hid, hnode] at hr
    cases hr
    rfl
  have hrelocked : ∀ node, h.spellCooldowns.find spellId = some node →
      Relocked data now schoolMask lockoutTime h spellId node := by
    intro node hnode
    exact ⟨hnode, hown node hnode ▸ hlt, spellInfo, hinfo, hsilenced⟩
  have hother : ∀ s, s ≠ spellId →
      (h.lockSpellEntry now spellId lockoutTime).spellCooldowns.find s =
        h.spellCooldowns.find s := fun s hs => find_write_of_ne hs
  have hcategories : ∀ (info : SpellInfo) r', h.getRemainingCategoryCooldown now info = .ok r' →
      ∃ r'', (h.lockSpellEntry now spellId lockoutTime).getRemainingCategoryCooldown now info =
        .ok r'' ∧ r' ≤ r'' := by
    intro info r' hr'
    have hlookup : (h.lockSpellEntry now spellId lockoutTime).categoryCooldowns =
      h.categoryCooldowns := rfl
    unfold getRemainingCategoryCooldown at hr' ⊢
    rw [hlookup]
    cases hc : h.categoryCooldowns.lookup info.category with
    | none =>
      rw [hc] at hr'
      exact ⟨r', hr', UInt32.le_refl _⟩
    | some ref =>
      rw [hc] at hr'
      dsimp only at hr' ⊢
      split at hr'
      · cases hr'
      · next e he =>
        cases hr'
        obtain ⟨e', he', hle⟩ := deref_lockSpellEntry (fun node hnode href =>
          (hsafe node (hrelocked node hnode)).2 info.category (href ▸ hc)) he
        rw [he']
        exact ⟨_, rfl, hle⟩
  refine ⟨fun _ => le_rfl, fun info hdata => ?_, fun info hdata r' hr' => ?_, fun info r' hr' => ?_,
    fun s node hnode hhold => ?_⟩
  · by_cases hs : info.id = spellId
    · rw [(remaining_lockSpellEntry h hs).1]
      unfold getRemainingSpellCooldown
      rw [hs]
      split
      · next node hnode =>
        rw [hown node hnode]
        exact UInt32.le_of_lt hlt
      · exact UInt32.zero_le
    · unfold getRemainingSpellCooldown
      rw [hother _ hs]
      exact UInt32.le_refl _
  · by_cases hs : info.id = spellId
    · rw [hs, hinfo] at hdata
      cases hdata
      cases hr.symm.trans hr'
      exact ⟨lockoutTime, (remaining_lockSpellEntry h hid).2, UInt32.le_of_lt hlt⟩
    · cases hnode : h.spellCooldowns.find info.id with
      | some node =>
        unfold getRemainingCooldown at hr' ⊢
        rw [hother _ hs, hnode]
        rw [hnode] at hr'
        exact ⟨r', hr', UInt32.le_refl _⟩
      | none =>
        rw [getRemainingCooldown_of_find_none hnode] at hr'
        rw [getRemainingCooldown_of_find_none ((hother _ hs).trans hnode)]
        exact hcategories info r' hr'
  · exact hcategories info r' hr'
  · by_cases hs : s = spellId
    · subst hs
      rw [(hsafe node (hrelocked node hnode)).1] at hhold
      cases hhold
    · exact ⟨node, (hother s hs).trans hnode, hhold⟩

/-! ### All spells -/

/-- Whether a lockout is safe for a spell depends on its entry and the category cooldowns. -/
theorem locksSafely_congr (hfind : h'.spellCooldowns.find spellId = h.spellCooldowns.find spellId)
    (hcats : h'.categoryCooldowns = h.categoryCooldowns) :
    LocksSafely data now schoolMask lockoutTime h' spellId ↔
      LocksSafely data now schoolMask lockoutTime h spellId := by
  unfold LocksSafely Relocked
  rw [hfind, hcats]

/-- The loop shortens nothing if it is safe for every spell. -/
theorem neverShortens_lockSpells (hspells : spells.Nodup)
    (hsafe : ∀ s ∈ spells, LocksSafely data now schoolMask lockoutTime h s)
    (hstep : spells.foldlM (lockSpell data now schoolMask lockoutTime) h = .ok h') :
    NeverShortens data now h h' := by
  induction spells generalizing h with
  | nil =>
    cases hstep
    exact NeverShortens.refl data now _
  | cons spellId spells ih =>
    rw [List.nodup_cons] at hspells
    rw [List.forall_mem_cons] at hsafe
    obtain ⟨t, ht, hloop⟩ := foldlM_cons_eq_ok.mp hstep
    obtain ⟨hcats, -, hothers⟩ := lockSpell_frame ht
    have hfirst : NeverShortens data now h t := by
      obtain rfl | ⟨rfl, spellInfo, r, hinfo, hsilenced, hr, hlt⟩ := lockSpell_eq ht
      · exact NeverShortens.refl data now _
      · exact neverShortens_lockSpellEntry hinfo hsilenced hr hlt hsafe.1
    refine hfirst.trans (ih hspells.2 (fun s hs => ?_) hloop)
    have hne : s ≠ spellId := fun heq => hspells.1 (heq ▸ hs)
    exact (locksSafely_congr (hothers s hne) hcats).mpr (hsafe.2 s hs)

/-- The loop does not touch the entries of the spells it does not go through. -/
theorem lockSpells_frame
    (hstep : spells.foldlM (lockSpell data now schoolMask lockoutTime) h = .ok h') :
    h'.categoryCooldowns = h.categoryCooldowns ∧ h'.schoolLockouts = h.schoolLockouts ∧
      ∀ s, s ∉ spells → h'.spellCooldowns.find s = h.spellCooldowns.find s := by
  induction spells generalizing h with
  | nil =>
    cases hstep
    exact ⟨rfl, rfl, fun _ _ => rfl⟩
  | cons spellId spells ih =>
    obtain ⟨t, ht, hloop⟩ := foldlM_cons_eq_ok.mp hstep
    obtain ⟨hcats, hschools, hothers⟩ := lockSpell_frame ht
    obtain ⟨hcats', hschools', hothers'⟩ := ih hloop
    refine ⟨hcats'.trans hcats, hschools'.trans hschools, fun s hs => ?_⟩
    rw [List.mem_cons, not_or] at hs
    rw [hothers' s hs.2, hothers s hs.1]

/-- The loop stores the entries of the spells that are locked again, in the same nodes. -/
theorem find_lockSpells (hspells : spells.Nodup)
    (hstep : spells.foldlM (lockSpell data now schoolMask lockoutTime) h = .ok h')
    (hmem : spellId ∈ spells) {node : Node CooldownEntry}
    (hrelocked : Relocked data now schoolMask lockoutTime h spellId node) :
    ∃ node', h'.spellCooldowns.find spellId = some node' ∧ node'.ref = node.ref ∧
      node'.value.onHold = false ∧ node'.value.categoryEnd = now := by
  induction spells generalizing h with
  | nil => cases hmem
  | cons s spells ih =>
    rw [List.nodup_cons] at hspells
    obtain ⟨t, ht, hloop⟩ := foldlM_cons_eq_ok.mp hstep
    obtain ⟨hnode, hlt, spellInfo, hinfo, hsilenced⟩ := hrelocked
    rcases List.mem_cons.mp hmem with rfl | hrest
    · rw [(lockSpells_frame hloop).2.2 spellId hspells.1]
      obtain ⟨-, hnot⟩ | ⟨rfl, -⟩ := lockSpell_cases ht
      · exact absurd hlt (hnot spellInfo node hinfo hsilenced hnode)
      · exact ⟨_, find_write_self, refOf_of_find hnode, rfl, rfl⟩
    · have hne : spellId ≠ s := fun heq => hspells.1 (heq ▸ hrest)
      refine ih hspells.2 hloop hrest ⟨?_, hlt, spellInfo, hinfo, hsilenced⟩
      rw [(lockSpell_frame ht).2.2 spellId hne, hnode]

/-- An interrupt shortens nothing exactly when no school it locks is locked for longer, no
silenced spell whose cooldown has less left than the lockout lasts is on hold, and no category
cooldown that refers to the entry of such a spell has a millisecond left. -/
theorem lockSpellSchool_neverShortens_iff {owner : Owner}
    (hstep : h.lockSpellSchool data now schoolMask lockoutTime owner = .ok h') :
    NeverShortens data now h h' ↔
      (∀ i : Fin MAX_SPELL_SCHOOL, (1 <<< UInt32.ofNat i.val) &&& schoolMask ≠ 0 →
        h.schoolLockouts i ≤ now + milliseconds lockoutTime.toNat) ∧
      ∀ s ∈ owner.knownSpells, LocksSafely data now schoolMask lockoutTime h s := by
  unfold lockSpellSchool at hstep
  obtain ⟨hcats, hschools, -⟩ := lockSpells_frame hstep
  constructor
  · intro hnever
    constructor
    · intro i hi
      have hle := hnever.lockouts i
      rw [hschools] at hle
      dsimp only at hle
      rwa [if_pos hi] at hle
    · intro s hs node hrelocked
      obtain ⟨node', hnode', href, hhold', hends'⟩ :=
        find_lockSpells owner.nodup_knownSpells hstep hs hrelocked
      constructor
      · rw [← Bool.not_eq_true]
        intro hhold
        obtain ⟨n, hn, hheld⟩ := hnever.onHold s node hrelocked.1 hhold
        cases hnode'.symm.trans hn
        rw [hhold'] at hheld
        cases hheld
      · intro c hc
        have hbefore : h.getRemainingCategoryCooldown now { id := 0, category := c } =
            .ok (remainingUntil now node.value.categoryEnd) := by
          unfold getRemainingCategoryCooldown
          rw [hc]
          dsimp only
          rw [deref_of_find hrelocked.1]
        have hafter : h'.getRemainingCategoryCooldown now { id := 0, category := c } = .ok 0 := by
          unfold getRemainingCategoryCooldown
          rw [hcats]
          dsimp only
          rw [hc]
          dsimp only
          rw [← href, deref_of_find hnode']
          dsimp only
          rw [hends', remainingUntil_self]
        obtain ⟨r, hr, hle⟩ := hnever.categories _ _ hbefore
        cases hafter.symm.trans hr
        exact UInt32.le_zero_iff.mp hle
  · rintro ⟨hlocked, hsafe⟩
    have hloop := neverShortens_lockSpells owner.nodup_knownSpells (by exact hsafe) hstep
    refine ⟨fun i => ?_, hloop.spells, hloop.withCategory, hloop.categories, hloop.onHold⟩
    rw [hschools]
    dsimp only
    split
    · next hi => exact hlocked i hi
    · exact Int.le_refl _

end SpellHistory

/-- A school locked for eight seconds by one interrupt. -/
def lockedOnce : List (Time × Op) := [(0, .lockSpellSchool 4 8000 (.player []))]

/-- What the first interrupt leaves. -/
def lockedFire : SpellHistory :=
  { ({} : SpellHistory) with
    schoolLockouts := fun i =>
      if (1 <<< UInt32.ofNat i.val) &&& (4 : UInt32) ≠ 0 then 0 + milliseconds (8000 : UInt32).toNat
      else 0 }

/-- An interrupt of a spell that is on cooldown with its category. -/
theorem lockSpellSchool_neverShortens_iff_onCooldown :
    ∃ h h', StateMachine.run (step fireData) (.ok {}) (lockedThenReset.take 1) = .ok h ∧
      h.lockSpellSchool fireData 0 4 4000 (.player [(133, false)]) = .ok h' ∧
      (SpellHistory.NeverShortens fireData 0 h h' ↔
        (∀ i : Fin MAX_SPELL_SCHOOL, (1 <<< UInt32.ofNat i.val) &&& (4 : UInt32) ≠ 0 →
          h.schoolLockouts i ≤ 0 + milliseconds (4000 : UInt32).toNat) ∧
        ∀ s ∈ (Owner.player [(133, false)]).knownSpells,
          SpellHistory.LocksSafely fireData 0 4 4000 h s) :=
  ⟨_, _, rfl, rfl, SpellHistory.lockSpellSchool_neverShortens_iff rfl⟩

/-- A second, shorter interrupt one second later unlocks the school earlier. -/
theorem second_interrupt_shortens_first :
    ¬∀ (data : GameData) (events : List (Time × Op)) (h h' : SpellHistory) (now : Time)
      (schoolMask lockoutTime : UInt32) (owner : Owner), (∀ e ∈ events, e.1 ≤ now) →
      StateMachine.run (step data) (.ok {}) events = .ok h →
      h.lockSpellSchool data now schoolMask lockoutTime owner = .ok h' →
      SpellHistory.NeverShortens data now h h' := by
  intro hall
  have hnever := hall fireData lockedOnce lockedFire _ (milliseconds 1000) 4 2000 (.player [])
    (by simp [lockedOnce, milliseconds]) rfl rfl
  exact absurd (hnever.lockouts ⟨2, by decide⟩) (by decide)

end TrinityCore.Spells
