import TrinityCore.Chat.Channel
import TrinityCore.Lib.StateMachine
import TrinityCore.Lib.TreeMapLists

/-!
# Who owns a channel

Ownership is stored as a GUID, as a flag of one member and, of the owner's invisibility, as a flag
of the channel. The three agree in exactly the runs where no hand-over passes from an owner to
someone of other visibility or to someone who is gone.
-/

namespace TrinityCore.Chat

open Channel Std.ExtTreeMap TreeMapLists

/-! ### Flags of members -/

namespace PlayerInfo

/-- A flag that was set or cleared reads so; the flags beside it read as before. -/
theorem hasFlag_putFlag (info : PlayerInfo) (state : Bool) :
    (info.putFlag 1 state).hasFlag 1 = state ∧ (info.putFlag 2 state).hasFlag 1 = info.hasFlag 1 ∧
      (info.putFlag 8 state).hasFlag 1 = info.hasFlag 1 := by
  have hbits : ∀ flags : BitVec 8, (flags ||| 1) &&& 1 ≠ 0 ∧ (flags &&& ~~~1) &&& 1 = 0 ∧
      (flags ||| 2) &&& 1 = flags &&& 1 ∧ (flags &&& ~~~2) &&& 1 = flags &&& 1 ∧
      (flags ||| 8) &&& 1 = flags &&& 1 ∧ (flags &&& ~~~8) &&& 1 = flags &&& 1 := by decide
  obtain ⟨hset, hclear, hset2, hclear2, hset8, hclear8⟩ := hbits info.flags.toBitVec
  unfold putFlag hasFlag
  cases state with
  | true =>
    refine ⟨?_, ?_, ?_⟩
    · rw [bne_iff_ne, Ne, ← UInt8.toBitVec_inj]
      exact hset
    · congr 1
      exact UInt8.toBitVec_inj.mp hset2
    · congr 1
      exact UInt8.toBitVec_inj.mp hset8
  | false =>
    refine ⟨?_, ?_, ?_⟩
    · rw [bne_eq_false_iff_eq, ← UInt8.toBitVec_inj]
      exact hclear
    · congr 1
      exact UInt8.toBitVec_inj.mp hclear2
    · congr 1
      exact UInt8.toBitVec_inj.mp hclear8

@[simp] theorem isOwner_setOwner (info : PlayerInfo) (state : Bool) :
    (info.setOwner state).isOwner = state := (hasFlag_putFlag info state).1

@[simp] theorem isOwner_setModerator (info : PlayerInfo) (state : Bool) :
    (info.setModerator state).isOwner = info.isOwner := (hasFlag_putFlag info state).2.1

@[simp] theorem isOwner_setMuted (info : PlayerInfo) (state : Bool) :
    (info.setMuted state).isOwner = info.isOwner := (hasFlag_putFlag info state).2.2

@[simp] theorem isOwner_setInvisible (info : PlayerInfo) (on : Bool) :
    (info.setInvisible on).isOwner = info.isOwner := rfl

@[simp] theorem invisible_setOwner (info : PlayerInfo) (state : Bool) :
    (info.setOwner state).invisible = info.invisible := rfl

@[simp] theorem invisible_setModerator (info : PlayerInfo) (state : Bool) :
    (info.setModerator state).invisible = info.invisible := rfl

@[simp] theorem invisible_setMuted (info : PlayerInfo) (state : Bool) :
    (info.setMuted state).invisible = info.invisible := rfl

@[simp] theorem invisible_setInvisible (info : PlayerInfo) (on : Bool) :
    (info.setInvisible on).invisible = on := rfl

end PlayerInfo

/-! ### Members -/

variable {channel : Channel} {guid other : ObjectGuid} {info : PlayerInfo}
  {f : PlayerInfo → PlayerInfo}

theorem getElem?_updateMember (channel : Channel) (guid other : ObjectGuid)
    (f : PlayerInfo → PlayerInfo) :
    (channel.updateMember guid f).playersStore[other]? =
      if guid = other then (channel.playersStore[other]?).map f
      else channel.playersStore[other]? := by
  unfold updateMember
  by_cases h : guid = other
  · simp [getElem?_modify_eq, h]
  · simp [getElem?_modify_eq, h, Ne.symm h]

theorem isEmpty_iff (store : Std.ExtTreeMap ObjectGuid PlayerInfo) :
    store = ∅ ↔ ∀ guid : ObjectGuid, store[guid]? = none := by
  constructor
  · rintro rfl guid
    exact getElem?_empty
  · intro h
    apply ext_getElem?
    intro guid
    rw [h guid, getElem?_empty]

theorem getElem?_eraseMember (store : Std.ExtTreeMap ObjectGuid PlayerInfo)
    (guid other : ObjectGuid) :
    (store.erase guid)[other]? = if guid = other then none else store[other]? := by
  simp only [getElem?_erase_eq, @eq_comm _ other guid]

theorem getElem?_insertMember (store : Std.ExtTreeMap ObjectGuid PlayerInfo)
    (guid other : ObjectGuid) (info : PlayerInfo) :
    (store.insert guid info)[other]? = if guid = other then some info else store[other]? := by
  simp only [getElem?_insert_eq, @eq_comm _ other guid]

/-! ### Ownership -/

/-- The owner is a member, the only one with the owner flag, and as invisible as the channel says
it is. -/
structure Owned (channel : Channel) : Prop where
  member : ∃ info, channel.playersStore[channel.ownerGuid]? = some info ∧
    info.invisible = channel.isOwnerInvisible
  flag : ∀ guid info, channel.playersStore[guid]? = some info →
    (info.isOwner = true ↔ guid = channel.ownerGuid)

/-- A channel with members is owned, and no member is banned. -/
structure Sound (channel : Channel) : Prop where
  owned : channel.playersStore ≠ ∅ → Owned channel
  banned : ∀ guid ∈ channel.bannedStore, channel.playersStore[guid]? = none

/-- Of the members none but the owner may have the owner flag, and none is the empty GUID. -/
structure Flagged (channel : Channel) : Prop where
  flag : ∀ guid info, channel.playersStore[guid]? = some info → info.isOwner = true →
    guid = channel.ownerGuid
  zero : channel.playersStore[(0 : ObjectGuid)]? = none

theorem ownerGuid_setOwner (channel : Channel) (guid : ObjectGuid) :
    (channel.setOwner guid).ownerGuid = guid := by
  unfold setOwner
  dsimp only
  split <;> rfl

theorem isOwnerInvisible_setOwner (channel : Channel) (guid : ObjectGuid) :
    (channel.setOwner guid).isOwnerInvisible = channel.isOwnerInvisible := by
  unfold setOwner
  dsimp only
  split <;> split <;> rfl

/-- `SetOwner` takes the flag from the old owner, then gives it to the new one. -/
theorem getElem?_setOwner (channel : Channel) (hguid : guid ≠ 0)
    (hzero : channel.playersStore[(0 : ObjectGuid)]? = none) (other : ObjectGuid) :
    (channel.setOwner guid).playersStore[other]? =
      (channel.playersStore[other]?).map fun info =>
        let info := if channel.ownerGuid = other then info.setOwner false else info
        if guid = other then (info.setModerator true).setOwner true else info := by
  have hcleared : ∀ channel' : Channel,
      channel' = (if channel.ownerGuid != 0 then
        channel.updateMember channel.ownerGuid (·.setOwner false) else channel) →
      channel'.playersStore[other]? = (channel.playersStore[other]?).map fun info =>
        if channel.ownerGuid = other then info.setOwner false else info := by
    rintro channel' rfl
    by_cases howner : channel.ownerGuid = 0
    · rw [if_neg (by simpa using howner)]
      by_cases hother : channel.ownerGuid = other
      · obtain rfl : other = 0 := hother.symm.trans howner
        rw [hzero]
        rfl
      · simp [hother]
    · rw [if_pos (bne_iff_ne.mpr howner), getElem?_updateMember]
      by_cases hother : channel.ownerGuid = other
      · simp [hother]
      · simp [hother]
  unfold setOwner
  dsimp only
  rw [if_pos (bne_iff_ne.mpr hguid), getElem?_updateMember]
  dsimp only
  rw [hcleared _ rfl, Option.map_map]
  by_cases hnew : guid = other
  · simp only [if_pos hnew]
    rfl
  · simp only [if_neg hnew]

/-- A new owner owns the channel exactly when it is a member of the visibility that the channel
has recorded. -/
theorem owned_setOwner_iff (h : Flagged channel) (hguid : guid ≠ 0) :
    Owned (channel.setOwner guid) ↔ ∃ info, channel.playersStore[guid]? = some info ∧
      info.invisible = channel.isOwnerInvisible := by
  constructor
  · intro howned
    obtain ⟨info, hinfo, hinvisible⟩ := howned.member
    rw [ownerGuid_setOwner, getElem?_setOwner channel hguid h.zero, Option.map_eq_some_iff]
      at hinfo
    obtain ⟨before, hbefore, rfl⟩ := hinfo
    refine ⟨before, hbefore, ?_⟩
    rw [isOwnerInvisible_setOwner] at hinvisible
    rw [← hinvisible]
    by_cases hold : channel.ownerGuid = guid
    · simp [hold]
    · simp [hold]
  · rintro ⟨info, hinfo, hinvisible⟩
    constructor
    · rw [ownerGuid_setOwner, getElem?_setOwner channel hguid h.zero, hinfo]
      refine ⟨_, rfl, ?_⟩
      rw [isOwnerInvisible_setOwner, ← hinvisible]
      by_cases hold : channel.ownerGuid = guid
      · simp [hold]
      · simp [hold]
    · intro other after hafter
      rw [getElem?_setOwner channel hguid h.zero, Option.map_eq_some_iff] at hafter
      obtain ⟨before, hbefore, rfl⟩ := hafter
      rw [ownerGuid_setOwner]
      by_cases hnew : guid = other
      · simp [hnew]
      · by_cases hold : channel.ownerGuid = other
        · simp [hold, hnew, Ne.symm hnew]
        · have hnot : before.isOwner = false := by
            by_contra hflag
            exact hold (h.flag other before hbefore (by simpa using hflag)).symm
          simp [hold, hnew, Ne.symm hnew, hnot]

theorem Owned.flagged (h : Owned channel)
    (hzero : channel.playersStore[(0 : ObjectGuid)]? = none) : Flagged channel :=
  ⟨fun guid info hinfo => (h.flag guid info hinfo).mp, hzero⟩

/-- The owner flag and the visibility of the members are all that ownership reads of them. -/
theorem Owned.congr {channel' : Channel} (h : Owned channel)
    (howner : channel'.ownerGuid = channel.ownerGuid)
    (hmembers : ∀ guid : ObjectGuid,
      (channel'.playersStore[guid]?).map (fun info => (info.isOwner, info.invisible)) =
        (channel.playersStore[guid]?).map fun info => (info.isOwner, info.invisible))
    (hinvisible : channel'.isOwnerInvisible = channel.isOwnerInvisible) : Owned channel' := by
  constructor
  · obtain ⟨info, hinfo, hsame⟩ := h.member
    have hmember := hmembers channel.ownerGuid
    rw [hinfo, Option.map_some, Option.map_eq_some_iff] at hmember
    obtain ⟨info', hinfo', heq⟩ := hmember
    rw [howner, hinvisible]
    exact ⟨info', hinfo', (congrArg Prod.snd heq).trans hsame⟩
  · intro guid info' hinfo'
    have hmember := hmembers guid
    rw [hinfo', Option.map_some, eq_comm, Option.map_eq_some_iff] at hmember
    obtain ⟨info, hinfo, heq⟩ := hmember
    rw [howner, ← h.flag guid info hinfo]
    exact Eq.congr_left (congrArg Prod.fst heq).symm

/-! ### The invariant -/

/-- The calls that keep a channel sound. -/
def Keeps (channel : Channel) : Operation → Prop
  -- A channel that has emptied does not forget its owner.
  | .joinChannel player pass lfgRestricted =>
    channel.playersStore = ∅ → channel.letsIn player pass lfgRestricted = true →
      channel.ownerGuid = 0 ∨ channel.isOwnerInvisible = true
  -- The heir of an invisible owner is recorded as invisible.
  | .leaveChannel player =>
    player.guid = channel.ownerGuid → channel.isOwnerInvisible = true →
      ∀ other info, other ≠ player.guid → channel.playersStore[other]? = some info →
        info.invisible = true
  -- Who kicks the owner takes over from it, with its visibility.
  | .kickOrBan player bad _ =>
    channel.kickVictim player bad = some channel.ownerGuid →
      (∀ other : ObjectGuid, other ≠ channel.ownerGuid → channel.playersStore[other]? = none) ∨
        player.guid ≠ channel.ownerGuid ∧ ∃ info,
          channel.playersStore[player.guid]? = some info ∧
            info.invisible = channel.isOwnerInvisible
  -- And so does who is named the owner.
  | .setOwner player newp =>
    ∀ victim info, channel.namedOwner player newp = some victim →
      channel.playersStore[victim]? = some info → info.invisible = channel.isOwnerInvisible
  | _ => True

/-- A sound custom channel whose members are players. -/
structure Inv (channel : Channel) : Prop extends Sound channel where
  zero : channel.playersStore[(0 : ObjectGuid)]? = none
  enabled : channel.ownershipEnabled = true
  custom : channel.channelId = 0

theorem Inv.flagged (h : Inv channel) : Flagged channel := by
  by_cases hempty : channel.playersStore = ∅
  · refine ⟨fun guid info hinfo => ?_, h.zero⟩
    rw [(isEmpty_iff _).mp hempty guid] at hinfo
    cases hinfo
  · exact (h.owned hempty).flagged h.zero

theorem Inv.isConstant (h : Inv channel) : channel.isConstant = false := by
  unfold Channel.isConstant
  rw [h.custom]
  rfl

theorem ne_empty_of_member (h : channel.playersStore[guid]? = some info) :
    channel.playersStore ≠ ∅ := by
  intro hempty
  rw [(isEmpty_iff _).mp hempty guid] at h
  cases h

theorem isOn_iff (channel : Channel) (guid : ObjectGuid) :
    channel.isOn guid = true ↔ ∃ info, channel.playersStore[guid]? = some info := by
  unfold isOn
  rw [contains_eq_isSome_getElem?, Option.isSome_iff_exists]

theorem isOn_eq_false_iff (channel : Channel) (guid : ObjectGuid) :
    channel.isOn guid = false ↔ channel.playersStore[guid]? = none := by
  unfold isOn
  rw [contains_eq_isSome_getElem?, Option.isSome_eq_false_iff,
    Option.isNone_iff_eq_none]

/-- Changes that keep the owner, the membership and what ownership reads of the members. -/
theorem Sound.congr {channel' : Channel} (h : Sound channel)
    (howner : channel'.ownerGuid = channel.ownerGuid)
    (hmembers : ∀ guid : ObjectGuid,
      (channel'.playersStore[guid]?).map (fun info => (info.isOwner, info.invisible)) =
        (channel.playersStore[guid]?).map fun info => (info.isOwner, info.invisible))
    (hinvisible : channel'.isOwnerInvisible = channel.isOwnerInvisible)
    (hbanned : channel'.bannedStore ⊆ channel.bannedStore) : Sound channel' := by
  have hnone : ∀ guid : ObjectGuid, channel'.playersStore[guid]? = none ↔
      channel.playersStore[guid]? = none := by
    intro guid
    rw [← Option.map_eq_none_iff, hmembers guid, Option.map_eq_none_iff]
  constructor
  · intro hne
    refine (h.owned fun hempty => hne ?_).congr howner hmembers hinvisible
    rw [isEmpty_iff] at hempty ⊢
    exact fun guid => (hnone guid).mpr (hempty guid)
  · intro guid hguid
    exact (hnone guid).mpr (h.banned guid (hbanned hguid))

theorem bannedStore_setOwner (channel : Channel) (guid : ObjectGuid) :
    (channel.setOwner guid).bannedStore = channel.bannedStore := by
  unfold setOwner
  dsimp only
  split <;> split <;> rfl

/-- Handing a channel over leaves it sound exactly when the new owner is a member of the recorded
visibility. -/
theorem sound_setOwner_iff (h : Flagged channel) (hguid : guid ≠ 0)
    (hmembers : channel.playersStore ≠ ∅)
    (hbanned : ∀ guid ∈ channel.bannedStore, channel.playersStore[guid]? = none) :
    Sound (channel.setOwner guid) ↔ ∃ info, channel.playersStore[guid]? = some info ∧
      info.invisible = channel.isOwnerInvisible := by
  rw [← owned_setOwner_iff h hguid]
  have hnone : ∀ other : ObjectGuid, (channel.setOwner guid).playersStore[other]? = none ↔
      channel.playersStore[other]? = none := by
    intro other
    rw [getElem?_setOwner channel hguid h.zero, Option.map_eq_none_iff]
  constructor
  · intro hsound
    apply hsound.owned
    intro hempty
    refine hmembers ((isEmpty_iff _).mpr fun other => ?_)
    exact (hnone other).mp ((isEmpty_iff _).mp hempty other)
  · intro howned
    refine ⟨fun _ => howned, fun other hother => ?_⟩
    rw [bannedStore_setOwner] at hother
    exact (hnone other).mpr (hbanned other hother)

theorem map_updateMember (hf : ∀ info, (f info).isOwner = info.isOwner ∧
    (f info).invisible = info.invisible) (guid other : ObjectGuid) :
    ((channel.updateMember guid f).playersStore[other]?).map
        (fun info => (info.isOwner, info.invisible)) =
      (channel.playersStore[other]?).map fun info => (info.isOwner, info.invisible) := by
  rw [getElem?_updateMember]
  split
  · rw [Option.map_map]
    refine congrArg (Option.map · _) (funext fun info => ?_)
    exact Prod.ext (hf info).1 (hf info).2
  · rfl

theorem Sound.updateMember (h : Sound channel) (hf : ∀ info, (f info).isOwner = info.isOwner ∧
    (f info).invisible = info.invisible) : Sound (channel.updateMember guid f) :=
  h.congr rfl (map_updateMember hf guid) rfl (Finset.Subset.refl _)

/-- The same for a member that is made a moderator on the way. -/
theorem sound_promote_iff (h : Flagged channel) (hguid : guid ≠ 0)
    (hmembers : channel.playersStore ≠ ∅)
    (hbanned : ∀ guid ∈ channel.bannedStore, channel.playersStore[guid]? = none) :
    Sound ((channel.updateMember guid (·.setModerator true)).setOwner guid) ↔
      ∃ info, channel.playersStore[guid]? = some info ∧
        info.invisible = channel.isOwnerInvisible := by
  have hlookup : ∀ other : ObjectGuid,
      (channel.updateMember guid (·.setModerator true)).playersStore[other]? =
        (channel.playersStore[other]?).map fun info =>
          if guid = other then info.setModerator true else info := by
    intro other
    rw [getElem?_updateMember]
    split
    · rfl
    · simp
  have hnone : ∀ other : ObjectGuid,
      (channel.updateMember guid (·.setModerator true)).playersStore[other]? = none ↔
        channel.playersStore[other]? = none := by
    intro other
    rw [hlookup, Option.map_eq_none_iff]
  rw [sound_setOwner_iff _ hguid]
  · rw [hlookup]
    constructor
    · rintro ⟨info, hinfo, hinvisible⟩
      obtain ⟨before, hbefore, rfl⟩ := Option.map_eq_some_iff.mp hinfo
      rw [if_pos rfl] at hinvisible
      exact ⟨before, hbefore, hinvisible⟩
    · rintro ⟨info, hinfo, hinvisible⟩
      rw [hinfo]
      refine ⟨_, rfl, ?_⟩
      dsimp only
      rw [if_pos rfl]
      exact hinvisible
  · intro hempty
    refine hmembers ((isEmpty_iff _).mpr fun other => ?_)
    exact (hnone other).mp ((isEmpty_iff _).mp hempty other)
  · exact fun other hother => (hnone other).mpr (hbanned other hother)
  · refine ⟨fun other info hinfo howner => ?_, (hnone 0).mpr h.zero⟩
    rw [hlookup, Option.map_eq_some_iff] at hinfo
    obtain ⟨before, hbefore, rfl⟩ := hinfo
    refine h.flag other before hbefore ?_
    split at howner
    · simpa using howner
    · exact howner

/-! ### Joining and leaving -/

theorem letsIn_iff (channel : Channel) (player : Player) (pass : String) (lfgRestricted : Bool)
    (h : channel.letsIn player pass lfgRestricted = true) :
    channel.playersStore[player.guid]? = none ∧ player.guid ∉ channel.bannedStore := by
  unfold letsIn isBanned at h
  simp only [Bool.and_eq_true, Bool.not_eq_true', decide_eq_false_iff_not] at h
  exact ⟨(isOn_eq_false_iff _ _).mp h.1.1.1, h.1.1.2⟩

/-- A player who enters an empty channel owns it unless an earlier owner is still named. -/
theorem sound_enter_iff (h : Inv channel) {pinfo : PlayerInfo} (hfresh : pinfo.isOwner = false)
    (hguid : guid ≠ 0) (hnew : channel.playersStore[guid]? = none)
    (hbanned : guid ∉ channel.bannedStore) :
    Sound (channel.enter guid pinfo) ↔ (channel.playersStore = ∅ →
      channel.ownerGuid = 0 ∨ channel.isOwnerInvisible = true) := by
  unfold enter
  dsimp only
  have hlookup := getElem?_insertMember channel.playersStore guid
  have hbans : ∀ other ∈ channel.bannedStore,
      (channel.playersStore.insert guid pinfo)[other]? = none := by
    intro other hother
    rw [hlookup, if_neg fun heq : guid = other => hbanned (heq ▸ hother)]
    exact h.banned other hother
  split
  · next hclaims =>
    -- The player becomes the owner.
    simp only [Bool.and_eq_true, Bool.or_eq_true, beq_iff_eq] at hclaims
    refine ⟨fun _ _ => hclaims.2, fun _ => Sound.updateMember ?_ fun info => by simp⟩
    rw [sound_setOwner_iff _ hguid]
    · exact ⟨pinfo, by rw [hlookup, if_pos rfl], rfl⟩
    · intro hempty
      have hnone := (isEmpty_iff _).mp hempty guid
      rw [hlookup, if_pos rfl] at hnone
      cases hnone
    · exact hbans
    · constructor
      · intro other info hinfo howner
        rw [hlookup] at hinfo
        split at hinfo
        · cases hinfo
          exact nomatch howner.symm.trans hfresh
        · exact h.flagged.flag other info hinfo howner
      · rw [hlookup, if_neg hguid]
        exact h.zero
  · next hclaims =>
    by_cases hempty : channel.playersStore = ∅
    · -- The owner of before is still named, and the player is not.
      have hkept : ¬(channel.ownerGuid = 0 ∨ channel.isOwnerInvisible = true) := by
        intro hfree
        refine hclaims ?_
        show (!channel.isConstant && channel.ownershipEnabled &&
          (channel.playersStore.isEmpty || !pinfo.invisible) &&
          (channel.ownerGuid == 0 || channel.isOwnerInvisible)) = true
        rw [h.isConstant, h.enabled, hempty]
        simpa using hfree
      refine iff_of_false (fun hsound => ?_) fun hkeeps => hkept (hkeeps hempty)
      have howned := hsound.owned (ne_empty_of_member (show _ = some pinfo by
        rw [hlookup, if_pos rfl]))
      obtain ⟨info, hinfo, -⟩ := howned.member
      have howner := (howned.flag _ info hinfo).mpr rfl
      rw [hlookup] at hinfo
      split at hinfo
      · cases hinfo
        exact nomatch howner.symm.trans hfresh
      · rw [(isEmpty_iff _).mp hempty] at hinfo
        cases hinfo
    · have howned := h.owned hempty
      have hdiffers : guid ≠ channel.ownerGuid := by
        intro heq
        obtain ⟨info, hinfo, -⟩ := howned.member
        rw [← heq, hnew] at hinfo
        cases hinfo
      refine ⟨fun _ hnone => absurd hnone hempty, fun _ => ⟨fun _ => ⟨?_, ?_⟩, hbans⟩⟩
      · obtain ⟨info, hinfo, hinvisible⟩ := howned.member
        refine ⟨info, ?_, hinvisible⟩
        rw [hlookup, if_neg hdiffers]
        exact hinfo
      · intro other info hinfo
        rw [hlookup] at hinfo
        split at hinfo
        · next heq =>
          cases hinfo
          rw [hfresh]
          simpa [← heq] using hdiffers
        · exact howned.flag other info hinfo

theorem sound_joinChannel_iff (h : Inv channel) (player : Player) (pass : String)
    (lfgRestricted : Bool) :
    Sound (channel.joinChannel player pass lfgRestricted) ↔
      Keeps channel (.joinChannel player pass lfgRestricted) := by
  unfold joinChannel
  by_cases hlets : channel.letsIn player pass lfgRestricted = true
  · rw [if_neg (by simpa using hlets)]
    obtain ⟨hnew, hbanned⟩ := letsIn_iff channel player pass lfgRestricted hlets
    rw [sound_enter_iff h _ player.guid_ne_zero hnew hbanned]
    · exact ⟨fun hkeeps hempty _ => hkeeps hempty, fun hkeeps hempty => hkeeps hempty hlets⟩
    · show ((0 : UInt8) &&& 1 != 0) = false
      decide
  · rw [if_pos (by simpa using hlets)]
    exact ⟨fun _ _ hin => absurd hin hlets, fun _ => h.toSound⟩

/-- Of the heirs that `LeaveChannel` may choose, an invisible one is only chosen among invisible
members. -/
theorem heir_spec {entry : ObjectGuid × PlayerInfo} (h : channel.heir = some entry) :
    channel.playersStore[entry.1]? = some entry.2 ∧
      (entry.2.invisible = true → ∀ (other : ObjectGuid) (info : PlayerInfo),
        channel.playersStore[other]? = some info → info.invisible = true) := by
  unfold heir at h
  cases hfind : channel.playersStore.toList.find? fun entry => !entry.2.invisible with
  | some found =>
    rw [hfind] at h
    cases h
    have hvisible := List.find?_some hfind
    refine ⟨mem_toList_iff_getElem?_eq_some.mp (List.mem_of_find?_eq_some hfind),
      fun hinvisible => ?_⟩
    rw [hinvisible] at hvisible
    cases hvisible
  | none =>
    rw [hfind] at h
    refine ⟨mem_toList_iff_getElem?_eq_some.mp (List.mem_of_mem_head? h), ?_⟩
    intro _ other info hinfo
    have hmem := mem_toList_iff_getElem?_eq_some.mpr hinfo
    simpa using List.find?_eq_none.mp hfind _ hmem

theorem heir_eq_none (h : channel.heir = none) : channel.playersStore = ∅ := by
  unfold heir at h
  rw [Option.or_eq_none_iff, List.head?_eq_none_iff] at h
  rw [isEmpty_iff]
  intro guid
  cases hmember : channel.playersStore[guid]? with
  | none => rfl
  | some info =>
    have hmem := mem_toList_iff_getElem?_eq_some.mpr hmember
    rw [h.2] at hmem
    cases hmem

/-- A member who does not own the channel may go, also as a banned one. -/
theorem Sound.erase (h : Sound channel) (hguid : guid ≠ channel.ownerGuid)
    {bannedStore : Finset ObjectGuid} (hbanned : bannedStore ⊆ insert guid channel.bannedStore) :
    Sound { channel with
      playersStore := channel.playersStore.erase guid, bannedStore := bannedStore } := by
  have hlookup := getElem?_eraseMember channel.playersStore guid
  constructor
  · intro hne
    have howned : Owned channel := by
      apply h.owned
      intro hempty
      refine hne ((isEmpty_iff _).mpr fun other => ?_)
      show (channel.playersStore.erase guid)[other]? = none
      rw [hlookup, (isEmpty_iff _).mp hempty other, ite_self]
    constructor
    · obtain ⟨info, hinfo, hinvisible⟩ := howned.member
      refine ⟨info, ?_, hinvisible⟩
      show (channel.playersStore.erase guid)[channel.ownerGuid]? = some info
      rw [hlookup, if_neg hguid]
      exact hinfo
    · intro other info hinfo
      have hbefore : (channel.playersStore.erase guid)[other]? = some info := hinfo
      rw [hlookup] at hbefore
      split at hbefore
      · cases hbefore
      · exact howned.flag other info hbefore
  · intro other hother
    show (channel.playersStore.erase guid)[other]? = none
    rw [hlookup]
    split
    · rfl
    · next hdiffers =>
      cases Finset.mem_insert.mp (hbanned hother) with
      | inl heq => exact absurd heq.symm hdiffers
      | inr hbefore => exact h.banned other hbefore

/-- Without the owner the flags are as before. -/
theorem Flagged.erase (h : Flagged channel) (guid : ObjectGuid) :
    Flagged { channel with playersStore := channel.playersStore.erase guid } := by
  have hlookup := getElem?_eraseMember channel.playersStore guid
  constructor
  · intro other info hinfo
    have hbefore : (channel.playersStore.erase guid)[other]? = some info := hinfo
    rw [hlookup] at hbefore
    split at hbefore
    · cases hbefore
    · exact h.flag other info hbefore
  · show (channel.playersStore.erase guid)[(0 : ObjectGuid)]? = none
    rw [hlookup, h.zero, ite_self]

theorem setOwner_with_isOwnerInvisible (channel : Channel) (guid : ObjectGuid) (invisible : Bool) :
    { channel.setOwner guid with isOwnerInvisible := invisible } =
      { channel with isOwnerInvisible := invisible }.setOwner guid := by
  unfold setOwner
  dsimp only
  split <;> split <;> rfl

theorem sound_leaveChannel_iff (h : Inv channel) (player : Player) :
    Sound (channel.leaveChannel player) ↔ Keeps channel (.leaveChannel player) := by
  unfold leaveChannel
  cases hmember : channel.playersStore[player.guid]? with
  | none =>
    refine iff_of_true h.toSound ?_
    -- The owner of a channel with members is one of them.
    intro howner _ other info _ hinfo
    obtain ⟨owner, hown, -⟩ := (h.owned (ne_empty_of_member hinfo)).member
    rw [← howner, hmember] at hown
    cases hown
  | some info =>
    have howned := h.owned (ne_empty_of_member hmember)
    have hflag := howned.flag _ info hmember
    have hlookup := getElem?_eraseMember channel.playersStore player.guid
    have hflagged : Flagged { channel with
      playersStore := channel.playersStore.erase player.guid } := h.flagged.erase _
    have hbans : ∀ other ∈ channel.bannedStore,
        (channel.playersStore.erase player.guid)[other]? = none := by
      intro other hother
      rw [hlookup, h.banned other hother, ite_self]
    dsimp only
    by_cases howner : player.guid = channel.ownerGuid
    · rw [if_pos (by
        show (!channel.isConstant && info.isOwner && channel.ownershipEnabled) = true
        rw [h.isConstant, h.enabled, hflag.mpr howner]
        rfl)]
      cases hheir : ({ channel with playersStore := channel.playersStore.erase player.guid } :
        Channel).heir with
      | none =>
        have hempty := heir_eq_none hheir
        refine iff_of_true ⟨fun hne => absurd hempty hne, hbans⟩ ?_
        intro _ _ other otherInfo hdiffers hother
        have hnone := (isEmpty_iff _).mp hempty other
        rw [hlookup, if_neg (Ne.symm hdiffers), hother] at hnone
        cases hnone
      | some heir =>
        obtain ⟨hheirMember, hchoice⟩ := heir_spec hheir
        have hheirInfo : (channel.playersStore.erase player.guid)[heir.1]? = some heir.2 :=
          hheirMember
        have hheirOther : player.guid ≠ heir.1 ∧
            channel.playersStore[heir.1]? = some heir.2 := by
          rw [hlookup] at hheirInfo
          split at hheirInfo
          · cases hheirInfo
          · next hdiffers => exact ⟨hdiffers, hheirInfo⟩
        have hheirZero : heir.1 ≠ 0 := by
          intro hzero
          have hnone := h.zero
          rw [← hzero, hheirOther.2] at hnone
          cases hnone
        dsimp only
        rw [isOwnerInvisible_setOwner, setOwner_with_isOwnerInvisible]
        show Sound (({ channel with
          playersStore := channel.playersStore.erase player.guid
          isOwnerInvisible := if heir.2.invisible then true else channel.isOwnerInvisible } :
            Channel).updateMember heir.1 (·.setModerator true) |>.setOwner heir.1) ↔ _
        have hpassed : Flagged { channel with
            playersStore := channel.playersStore.erase player.guid
            isOwnerInvisible := if heir.2.invisible then true else channel.isOwnerInvisible } :=
          ⟨hflagged.flag, hflagged.zero⟩
        rw [sound_promote_iff hpassed hheirZero (ne_empty_of_member hheirMember) hbans]
        constructor
        · rintro ⟨after, hafter, hinvisible⟩ _ hrecorded other otherInfo hdiffers hother
          cases hheirMember.symm.trans hafter
          refine hchoice ?_ other otherInfo ?_
          · rw [hinvisible]
            show (if _ then true else channel.isOwnerInvisible) = true
            rw [hrecorded, ite_self]
          · show (channel.playersStore.erase player.guid)[other]? = some otherInfo
            rw [hlookup, if_neg (Ne.symm hdiffers)]
            exact hother
        · intro hkeeps
          refine ⟨heir.2, hheirMember, ?_⟩
          show heir.2.invisible = if heir.2.invisible then true else channel.isOwnerInvisible
          cases hvisible : heir.2.invisible with
          | true => rfl
          | false =>
            cases hrecorded : channel.isOwnerInvisible with
            | false => rfl
            | true =>
              have hinvisible := hkeeps howner hrecorded heir.1 heir.2 (Ne.symm hheirOther.1)
                hheirOther.2
              exact nomatch hinvisible.symm.trans hvisible
    · rw [if_neg (by
        show ¬(!channel.isConstant && info.isOwner && channel.ownershipEnabled) = true
        rw [Bool.eq_false_iff.mpr (mt hflag.mp howner)]
        simp)]
      refine iff_of_true ?_ fun heq => absurd heq howner
      exact h.toSound.erase howner (Finset.subset_insert _ _)

/-! ### Moderation -/

theorem mem_of_kickVictim {player : Player} {bad : Option Player} {victim : ObjectGuid}
    (h : channel.kickVictim player bad = some victim) :
    ∃ info, channel.playersStore[victim]? = some info := by
  unfold kickVictim at h
  split at h
  · cases h
  · split at h
    · cases h
    · split at h
      · cases h
      · next hon =>
        split at h
        · cases h
        · cases h
          exact (isOn_iff _ _).mp (by simpa using hon)

theorem sound_kickOrBan_iff (h : Inv channel) (player : Player) (bad : Option Player)
    (ban : Bool) :
    Sound (channel.kickOrBan player bad ban) ↔ Keeps channel (.kickOrBan player bad ban) := by
  unfold kickOrBan Keeps
  cases hvictim : channel.kickVictim player bad with
  | none => exact iff_of_true h.toSound fun hsome => nomatch hvictim.symm.trans hsome
  | some victim =>
    obtain ⟨info, hmember⟩ := mem_of_kickVictim hvictim
    have howned := h.owned (ne_empty_of_member hmember)
    have hlookup := getElem?_eraseMember channel.playersStore victim
    dsimp only
    obtain ⟨bannedStore, hbannedStore⟩ : ∃ bannedStore, bannedStore =
        (if ban && !channel.isBanned victim then insert victim channel.bannedStore
          else channel.bannedStore) := ⟨_, rfl⟩
    have hsubset : bannedStore ⊆ insert victim channel.bannedStore := by
      rw [hbannedStore]
      split
      · exact Finset.Subset.refl _
      · exact Finset.subset_insert _ _
    rw [← hbannedStore]
    have hbans : ∀ other ∈ bannedStore, (channel.playersStore.erase victim)[other]? = none := by
      intro other hother
      rw [hlookup]
      split
      · rfl
      · next hdiffers =>
        cases Finset.mem_insert.mp (hsubset hother) with
        | inl heq => exact absurd heq.symm hdiffers
        | inr hbefore => exact h.banned other hbefore
    by_cases howner : channel.ownerGuid = victim
    · by_cases hempty : channel.playersStore.erase victim = ∅
      · rw [if_neg (by
          show ¬(channel.ownerGuid == victim && channel.ownershipEnabled &&
            !(channel.playersStore.erase victim).isEmpty) = true
          simp [hempty])]
        refine iff_of_true ⟨fun hne => absurd hempty hne, hbans⟩ fun _ => Or.inl ?_
        intro other hdiffers
        have hnone := (isEmpty_iff _).mp hempty other
        rw [hlookup, if_neg fun heq => hdiffers (heq.symm.trans howner.symm)] at hnone
        exact hnone
      · rw [if_pos (by
          show (channel.ownerGuid == victim && channel.ownershipEnabled &&
            !(channel.playersStore.erase victim).isEmpty) = true
          simp [howner, h.enabled, hempty])]
        have hflagged : Flagged { channel with
            bannedStore := bannedStore, playersStore := channel.playersStore.erase victim } :=
          ⟨(h.flagged.erase victim).flag, (h.flagged.erase victim).zero⟩
        rw [sound_promote_iff hflagged player.guid_ne_zero hempty hbans]
        show (∃ info, (channel.playersStore.erase victim)[player.guid]? = some info ∧
          info.invisible = channel.isOwnerInvisible) ↔ _
        rw [hlookup]
        constructor
        · rintro ⟨info, hinfo, hinvisible⟩ _
          split at hinfo
          · cases hinfo
          · next hdiffers =>
            refine Or.inr ⟨fun heq => hdiffers (heq.trans howner).symm, info, hinfo, hinvisible⟩
        · intro hkeeps
          obtain halone | ⟨hdiffers, info, hinfo, hinvisible⟩ := hkeeps (howner ▸ hvictim)
          · refine absurd ((isEmpty_iff _).mpr fun other => ?_) hempty
            rw [hlookup]
            split
            · rfl
            · next hother => exact halone other fun heq => hother (heq.trans howner).symm
          · rw [if_neg fun heq => hdiffers (heq.symm.trans howner.symm)]
            exact ⟨info, hinfo, hinvisible⟩
    · rw [if_neg (by
        show ¬(channel.ownerGuid == victim && channel.ownershipEnabled &&
          !(channel.playersStore.erase victim).isEmpty) = true
        simp [howner])]
      refine iff_of_true (h.toSound.erase (Ne.symm howner) hsubset) fun heq => ?_
      exact absurd (Option.some_injective _ (heq.symm.trans hvictim)) howner

theorem sound_unBan (h : Sound channel) (player : Player) (bad : Option Player) :
    Sound (channel.unBan player bad) := by
  unfold unBan
  split
  · exact h
  · split
    · exact h
    · split
      · exact h
      · exact h.congr rfl (fun _ => rfl) rfl (Finset.erase_subset _ _)

theorem sound_setMode (h : Sound channel) (player : Player) (p2n : String)
    (newp : Option Player) (mod set : Bool) :
    Sound (channel.setMode player p2n newp mod set) := by
  unfold setMode
  split
  · exact h
  · split
    · exact h
    · split
      · exact h
      · split
        · exact h
        · split
          · exact h.updateMember fun info => by simp
          · exact h.updateMember fun info => by simp

/-- A member changes its own visibility, and that of the channel if it is the owner. -/
theorem sound_setInvisible (h : Sound channel) (player : Player) (on : Bool) :
    Sound (channel.setInvisible player on) := by
  unfold setInvisible
  split
  · exact h
  · next hon =>
    obtain ⟨info, hmember⟩ := (isOn_iff _ _).mp (by simpa using hon)
    have howned := h.owned (ne_empty_of_member hmember)
    have hlookup := getElem?_updateMember channel player.guid
    dsimp only
    constructor
    · intro _
      constructor
      · obtain ⟨owner, hown, hinvisible⟩ := howned.member
        show ∃ info, (channel.updateMember player.guid _).playersStore[channel.ownerGuid]? =
          some info ∧ info.invisible =
            if channel.ownerGuid == player.guid then on else channel.isOwnerInvisible
        rw [hlookup, hown]
        by_cases heq : player.guid = channel.ownerGuid
        · simp [heq]
        · simp [heq, Ne.symm heq, hinvisible]
      · intro other after hafter
        have hbefore : (channel.updateMember player.guid (·.setInvisible on)).playersStore[other]? =
          some after := hafter
        rw [hlookup] at hbefore
        show after.isOwner = true ↔ other = channel.ownerGuid
        split at hbefore
        · obtain ⟨before, hinfo, rfl⟩ := Option.map_eq_some_iff.mp hbefore
          exact howned.flag other before hinfo
        · exact howned.flag other after hbefore
    · intro other hother
      show (channel.updateMember player.guid (·.setInvisible on)).playersStore[other]? = none
      rw [hlookup, h.banned other hother]
      simp

theorem mem_of_namedOwner {player : Player} {newp : Option Player} {victim : ObjectGuid}
    (h : channel.namedOwner player newp = some victim) :
    ∃ info, channel.playersStore[victim]? = some info := by
  unfold namedOwner at h
  split at h
  · cases h
  · split at h
    · cases h
    · unfold findVictim at h
      split at h
      · cases h
      · split at h
        · cases h
        · next hon =>
          cases h
          simp only [Bool.or_eq_true, not_or] at hon
          exact (isOn_iff _ _).mp (by simpa using hon.1)

theorem sound_setOwnerByName_iff (h : Inv channel) (player : Player) (newp : Option Player) :
    Sound (channel.setOwnerByName player newp) ↔ Keeps channel (.setOwner player newp) := by
  unfold setOwnerByName Keeps
  cases hvictim : channel.namedOwner player newp with
  | none =>
    refine iff_of_true h.toSound fun victim info hsome => ?_
    exact nomatch hvictim.symm.trans hsome
  | some victim =>
    obtain ⟨info, hmember⟩ := mem_of_namedOwner hvictim
    have hzero : victim ≠ 0 := by
      rintro rfl
      exact nomatch hmember.symm.trans h.zero
    dsimp only
    rw [sound_promote_iff h.flagged hzero (ne_empty_of_member hmember) h.banned]
    constructor
    · rintro ⟨info, hinfo, hinvisible⟩ other otherInfo hnamed hother
      cases hvictim.symm.trans hnamed
      cases hinfo.symm.trans hother
      exact hinvisible
    · intro hkeeps
      exact ⟨info, hmember, hkeeps victim info hvictim hmember⟩

/-! ### Runs -/

theorem sound_apply_iff (h : Inv channel) (operation : Operation) :
    Sound (channel.apply operation) ↔ Keeps channel operation := by
  cases operation with
  | joinChannel player pass lfgRestricted => exact sound_joinChannel_iff h player pass lfgRestricted
  | leaveChannel player => exact sound_leaveChannel_iff h player
  | kickOrBan player bad ban => exact sound_kickOrBan_iff h player bad ban
  | unBan player bad => exact iff_of_true (sound_unBan h.toSound player bad) trivial
  | setMode player p2n newp mod set =>
    exact iff_of_true (sound_setMode h.toSound player p2n newp mod set) trivial
  | setInvisible player on => exact iff_of_true (sound_setInvisible h.toSound player on) trivial
  | setOwner player newp => exact sound_setOwnerByName_iff h player newp

/-- What no operation changes: the kind of the channel, and that the empty GUID is no member. -/
structure Frame (before after : Channel) : Prop where
  enabled : after.ownershipEnabled = before.ownershipEnabled
  custom : after.channelId = before.channelId
  zero : before.playersStore[(0 : ObjectGuid)]? = none →
    after.playersStore[(0 : ObjectGuid)]? = none

theorem Frame.refl (channel : Channel) : Frame channel channel := ⟨rfl, rfl, id⟩

theorem Frame.trans {before middle after : Channel} (h : Frame before middle)
    (h' : Frame middle after) : Frame before after :=
  ⟨h'.enabled.trans h.enabled, h'.custom.trans h.custom, h'.zero ∘ h.zero⟩

theorem frame_updateMember (channel : Channel) (guid : ObjectGuid) (f : PlayerInfo → PlayerInfo) :
    Frame channel (channel.updateMember guid f) := by
  refine ⟨rfl, rfl, fun hzero => ?_⟩
  rw [getElem?_updateMember, hzero]
  simp

theorem frame_setOwner (channel : Channel) (guid : ObjectGuid) :
    Frame channel (channel.setOwner guid) := by
  have hcleared : Frame channel (if channel.ownerGuid != 0 then
      channel.updateMember channel.ownerGuid (·.setOwner false) else channel) := by
    split
    · exact frame_updateMember ..
    · exact Frame.refl _
  unfold setOwner
  dsimp only
  split
  · refine Frame.trans (hcleared.trans ?_) (frame_updateMember ..)
    exact ⟨rfl, rfl, id⟩
  · exact hcleared.trans ⟨rfl, rfl, id⟩

theorem frame_erase (channel : Channel) (guid : ObjectGuid) (bannedStore : Finset ObjectGuid) :
    Frame channel { channel with
      playersStore := channel.playersStore.erase guid, bannedStore := bannedStore } := by
  refine ⟨rfl, rfl, fun hzero => ?_⟩
  show (channel.playersStore.erase guid)[(0 : ObjectGuid)]? = none
  rw [getElem?_eraseMember, hzero, ite_self]

theorem frame_enter (channel : Channel) {guid : ObjectGuid} (hguid : guid ≠ 0)
    (pinfo : PlayerInfo) : Frame channel (channel.enter guid pinfo) := by
  have hinsert : Frame channel { channel with
      playersStore := channel.playersStore.insert guid pinfo } := by
    refine ⟨rfl, rfl, fun hzero => ?_⟩
    show (channel.playersStore.insert guid pinfo)[(0 : ObjectGuid)]? = none
    rw [getElem?_insertMember, if_neg hguid]
    exact hzero
  unfold enter
  dsimp only
  split
  · refine Frame.trans (Frame.trans (hinsert.trans ?_) (frame_setOwner ..))
      (frame_updateMember ..)
    exact ⟨rfl, rfl, id⟩
  · exact hinsert

theorem frame_apply (channel : Channel) (operation : Operation) :
    Frame channel (channel.apply operation) := by
  cases operation with
  | joinChannel player pass lfgRestricted =>
    show Frame channel (channel.joinChannel player pass lfgRestricted)
    unfold joinChannel
    split
    · exact Frame.refl _
    · exact frame_enter channel player.guid_ne_zero _
  | leaveChannel player =>
    show Frame channel (channel.leaveChannel player)
    unfold leaveChannel
    split
    · exact Frame.refl _
    · have herase := frame_erase channel player.guid channel.bannedStore
      dsimp only
      split
      · split
        · exact herase
        · exact ((herase.trans (frame_updateMember ..)).trans (frame_setOwner ..)).trans
            ⟨rfl, rfl, id⟩
      · exact herase
  | kickOrBan player bad ban =>
    show Frame channel (channel.kickOrBan player bad ban)
    unfold kickOrBan
    split
    · exact Frame.refl _
    · dsimp only
      split
      · exact ((frame_erase ..).trans (frame_updateMember ..)).trans (frame_setOwner ..)
      · exact frame_erase ..
  | unBan player bad =>
    show Frame channel (channel.unBan player bad)
    unfold unBan
    split
    · exact Frame.refl _
    · split
      · exact Frame.refl _
      · split
        · exact Frame.refl _
        · exact ⟨rfl, rfl, id⟩
  | setMode player p2n newp mod set =>
    show Frame channel (channel.setMode player p2n newp mod set)
    unfold setMode
    split
    · exact Frame.refl _
    · split
      · exact Frame.refl _
      · split
        · exact Frame.refl _
        · split
          · exact Frame.refl _
          · split
            · exact frame_updateMember ..
            · exact frame_updateMember ..
  | setInvisible player on =>
    show Frame channel (channel.setInvisible player on)
    unfold setInvisible
    split
    · exact Frame.refl _
    · exact (frame_updateMember ..).trans ⟨rfl, rfl, id⟩
  | setOwner player newp =>
    show Frame channel (channel.setOwnerByName player newp)
    unfold setOwnerByName
    split
    · exact Frame.refl _
    · exact (frame_updateMember ..).trans (frame_setOwner ..)

theorem Inv.apply (h : Inv channel) {operation : Operation} (hkeeps : Keeps channel operation) :
    Inv (channel.apply operation) := by
  have hframe := frame_apply channel operation
  exact
    { toSound := (sound_apply_iff h operation).mpr hkeeps
      zero := hframe.zero h.zero
      enabled := hframe.enabled.trans h.enabled
      custom := hframe.custom.trans h.custom }

/-- A custom channel that starts empty is sound in all states of a run exactly when every
operation of the run keeps it so. -/
theorem channel_ownership (password : String) (banned : Finset ObjectGuid)
    (operations : List Operation) :
    (∀ before, before <+: operations →
      Sound (StateMachine.run Channel.apply
        { channelPassword := password, bannedStore := banned } before)) ↔
      StateMachine.Admits Channel.apply Keeps
        { channelPassword := password, bannedStore := banned } operations := by
  have hnone : ∀ guid : ObjectGuid,
      (∅ : Std.ExtTreeMap ObjectGuid PlayerInfo)[guid]? = none :=
    fun _ => Std.ExtTreeMap.getElem?_empty
  have hinit : Inv { channelPassword := password, bannedStore := banned } :=
    { owned := fun hne => absurd rfl hne
      banned := fun guid _ => hnone guid
      zero := hnone 0
      enabled := rfl
      custom := rfl }
  apply StateMachine.run_prefixes_iff_of_strengthening hinit
  · exact fun _ h => h.toSound
  · exact fun _ _ h hkeeps => h.apply hkeeps
  · exact fun _ _ h hkeeps hsound => hkeeps ((sound_apply_iff h _).mp hsound)

/-- A visible player without permissions. -/
def examplePlayer (guid : ObjectGuid) (h : guid ≠ 0) : Player := { guid := guid, guid_ne_zero := h }

/-- The owner turns invisible and leaves: the heir is visible, and the channel says it is not. -/
theorem visible_heir_recorded_invisible :
    ¬Sound (StateMachine.run Channel.apply {}
      [.joinChannel (examplePlayer 1 (by decide)) "" false,
        .joinChannel (examplePlayer 2 (by decide)) "" false,
        .setInvisible (examplePlayer 1 (by decide)) true,
        .leaveChannel (examplePlayer 1 (by decide))]) := by
  intro hsound
  obtain ⟨channel, hchannel⟩ : ∃ channel, channel = StateMachine.run Channel.apply {}
      [.joinChannel (examplePlayer 1 (by decide)) "" false,
        .joinChannel (examplePlayer 2 (by decide)) "" false,
        .setInvisible (examplePlayer 1 (by decide)) true,
        .leaveChannel (examplePlayer 1 (by decide))] := ⟨_, rfl⟩
  have hrun : channel.ownerGuid = 2 ∧ channel.isOwnerInvisible = true ∧
      channel.playersStore[(2 : ObjectGuid)]? = some { flags := 3, invisible := false } := by
    rw [hchannel]
    decide +kernel
  rw [← hchannel] at hsound
  obtain ⟨info, hinfo, hinvisible⟩ := (hsound.owned (ne_empty_of_member hrun.2.2)).member
  rw [hrun.1, hrun.2.2] at hinfo
  cases hinfo
  exact nomatch hinvisible.trans hrun.2.1

end TrinityCore.Chat
