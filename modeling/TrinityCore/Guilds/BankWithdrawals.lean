import TrinityCore.Guilds.BankStacks

/-!
# Withdrawn bank items

The counters of what the members have withdrawn from a tab, against the history of moves: a counter
grows by one with every item that leaves the tab for another one, and only while the rank's daily
limit allows it.
-/

namespace TrinityCore.Guilds

open Option

/-- How many items the player has moved from the tab to another one. -/
def departures (moves : List ItemMove) (guid tabId : Nat) : Nat :=
  moves.countP fun move => move.player = guid ∧ move.source = tabId ∧ move.target ≠ tabId

/-- The member with his counters after the moves. -/
def Member.afterMoves (moves : List ItemMove) (member : Member) : Member :=
  { member with
    bankWithdraw := member.bankWithdraw.mapIdx fun tabId value =>
      (value + departures moves member.guid tabId) % 2 ^ 32 }

/-- How often a rank may withdraw items from the tab in a day. -/
def ItemBank.slotLimit (s : ItemBank) (rankId tabId : Nat) : Nat :=
  (s.getRankBankTabSlotsPerDay rankId tabId).toNat

/-- The guild after an item of the player has gone from one tab to another one, or to a slot of the
same. -/
def Guild.countMove (g : Guild) (player source target : Nat) : Guild :=
  if target ≠ source then g.modifyMember player (·.updateBankTabWithdrawValue source 1) else g

variable {moves : List ItemMove} {member : Member} {guid tabId : Nat}

@[simp] theorem departures_nil : departures [] guid tabId = 0 := rfl

theorem departures_concat (player source target : Nat) :
    departures (moves ++ [⟨player, source, target⟩]) guid tabId = departures moves guid tabId +
      if player = guid ∧ source = tabId ∧ target ≠ tabId then 1 else 0 := by
  simp [departures, List.countP_append, List.countP_cons]

/-- A move to a slot of the same tab counts for no tab. -/
theorem departures_concat_same (player source : Nat) :
    departures (moves ++ [⟨player, source, source⟩]) guid tabId = departures moves guid tabId := by
  rw [departures_concat, if_neg, add_zero]
  rintro ⟨-, rfl, hne⟩
  exact hne rfl

@[simp] theorem Guild.countMove_ranks (g : Guild) (player source target : Nat) :
    (g.countMove player source target).ranks = g.ranks := by
  unfold countMove
  split <;> rfl

theorem Guild.getMember_countMove (g : Guild) (player source target guid : Nat) :
    (g.countMove player source target).getMember guid =
      if target ≠ source ∧ guid = player then
        (g.getMember guid).map (·.updateBankTabWithdrawValue source 1)
      else g.getMember guid := by
  have hsame : ∀ member : Member,
      (member.updateBankTabWithdrawValue source 1).guid = member.guid := fun _ => rfl
  unfold countMove
  split
  · next hleaves =>
    rw [getMember_modifyMember hsame]
    simp [hleaves]
  · next hstays => simp [hstays]

theorem Member.afterMoves_withdrawValue (hcounter : tabId < member.bankWithdraw.length) :
    (member.afterMoves moves).getBankTabWithdrawValue tabId =
      (member.getBankTabWithdrawValue tabId + departures moves member.guid tabId) % 2 ^ 32 := by
  simp [getBankTabWithdrawValue, afterMoves, hcounter]

variable {source target player : Nat}

/-- One more of the member's items leaves the tab. -/
theorem Member.afterMoves_update (hne : target ≠ source) :
    (member.afterMoves moves).updateBankTabWithdrawValue source 1 =
      member.afterMoves (moves ++ [⟨member.guid, source, target⟩]) := by
  have hcounters : (member.afterMoves moves).bankWithdraw.modify source
      (fun value => (value + 1) % 2 ^ 32) =
      (member.afterMoves (moves ++ [⟨member.guid, source, target⟩])).bankWithdraw := by
    apply List.ext_getElem?
    intro other
    simp only [afterMoves, List.getElem?_modify, List.getElem?_mapIdx, departures_concat]
    cases member.bankWithdraw[other]? with
    | none => rfl
    | some value =>
      by_cases hsource : source = other
      · subst hsource
        simp only [map_some, map_eq_map, if_true, true_and, if_pos hne,
          some.injEq]
        omega
      · simp [hsource]
  unfold updateBankTabWithdrawValue
  rw [hcounters]
  rfl

/-- A move of somebody else, or within a tab, is no withdrawal of the member. -/
theorem Member.afterMoves_other (hother : player ≠ member.guid ∨ target = source) :
    member.afterMoves (moves ++ [⟨player, source, target⟩]) = member.afterMoves moves := by
  have hsame : ∀ other, departures (moves ++ [⟨player, source, target⟩]) member.guid other =
      departures moves member.guid other := by
    intro other
    rcases hother with hplayer | rfl
    · rw [departures_concat, if_neg (fun h => hplayer h.1), add_zero]
    · exact departures_concat_same player target
  simp only [afterMoves, hsame]

namespace ItemBank

variable {s t : ItemBank} {player : Nat}

/-- A rank other than the leader's has withdrawals left only below its limit. -/
theorem withdrawValue_lt_slotLimit (hrank : member.rankId ≠ GR_GUILDMASTER)
    (hcounter : member.getBankTabWithdrawValue tabId ≤ s.slotLimit member.rankId tabId + 2 ^ 31)
    (hremaining : s.getMemberRemainingSlots member tabId ≠ 0) :
    member.getBankTabWithdrawValue tabId < s.slotLimit member.rankId tabId := by
  unfold slotLimit at *
  by_contra hnot
  apply hremaining
  unfold getMemberRemainingSlots
  rw [if_neg hrank]
  have hwraps : Int.bmod ((s.getRankBankTabSlotsPerDay member.rankId tabId).toNat -
      member.getBankTabWithdrawValue tabId) (2 ^ 32) =
      (s.getRankBankTabSlotsPerDay member.rankId tabId).toNat -
        member.getBankTabWithdrawValue tabId :=
    Int.bmod_eq_of_le (by omega) (by omega)
  dsimp only
  rw [hwraps, if_neg (show ¬(0 : Int) < _ by omega), ite_self]

/-- `HasWithdrawRights` for another tab: the player is a member with withdrawals left. -/
def MayWithdraw (s : ItemBank) (player tabId : Nat) : Prop :=
  ∃ member, s.guild.getMember player = some member ∧ s.getMemberRemainingSlots member tabId ≠ 0

/-- The counters and the ranks of the members of the bank are as its moves have left those of the
bank `s`, and no limit was passed. -/
structure Withdrawn (s t : ItemBank) : Prop where
  tabs : t.tabs = s.tabs
  ranks : t.guild.ranks = s.guild.ranks
  members : ∀ guid,
    t.guild.getMember guid = (s.guild.getMember guid).map (Member.afterMoves t.moves)
  limits : ∀ guid member, s.guild.getMember guid = some member → member.rankId ≠ GR_GUILDMASTER →
    ∀ tabId < s.tabs, departures t.moves guid tabId = 0 ∨
      member.getBankTabWithdrawValue tabId + departures t.moves guid tabId ≤
        s.slotLimit member.rankId tabId

/-- Counters as a bank has them: eight for each member, each of 32 bits, and none further over
the limit of its rank than a day's withdrawals can bring it. -/
structure Counted (s : ItemBank) : Prop where
  tabs : s.tabs ≤ GUILD_BANK_MAX_TABS
  counters : ∀ member ∈ s.guild.members, member.bankWithdraw.length = GUILD_BANK_MAX_TABS ∧
    ∀ tabId, member.getBankTabWithdrawValue tabId < 2 ^ 32 ∧
      member.getBankTabWithdrawValue tabId ≤ s.slotLimit member.rankId tabId + 2 ^ 31

theorem hasWithdrawRights_iff {data other : BankMoveItemData} :
    s.hasWithdrawRights player data other = true ↔
      other.container = data.container ∨ s.MayWithdraw player data.container := by
  unfold hasWithdrawRights MayWithdraw
  cases s.guild.getMember player with
  | none => simp
  | some member => simp

/-- A withdrawal from one tab leaves those from the others. -/
theorem MayWithdraw.of_countMove (h : s.MayWithdraw player tabId) (hne : tabId ≠ source)
    (htabs : t.tabs = s.tabs) (hguild : t.guild = s.guild.countMove player source tabId) :
    t.MayWithdraw player tabId := by
  obtain ⟨member, hmember, hremaining⟩ := h
  refine ⟨member.updateBankTabWithdrawValue source 1, ?_, ?_⟩
  · rw [hguild, Guild.getMember_countMove, if_pos ⟨hne, rfl⟩, hmember]
    rfl
  · have hvalue : (member.updateBankTabWithdrawValue source 1).getBankTabWithdrawValue tabId =
        member.getBankTabWithdrawValue tabId := by
      simp [Member.updateBankTabWithdrawValue, Member.getBankTabWithdrawValue,
        List.getElem?_modify_ne _ _ (Ne.symm hne)]
    have hrank : (member.updateBankTabWithdrawValue source 1).rankId = member.rankId := rfl
    have hinfo : ∀ rankId, t.guild.getRankInfo rankId = s.guild.getRankInfo rankId :=
      Guild.getRankInfo_of_ranks (by rw [hguild, Guild.countMove_ranks])
    unfold getMemberRemainingSlots getRankBankTabSlotsPerDay getRankBankTabRights at *
    rw [hvalue, hrank, htabs, hinfo]
    exact hremaining

namespace Withdrawn

theorem slotLimit_eq (h : Withdrawn s t) (rankId tabId : Nat) :
    t.slotLimit rankId tabId = s.slotLimit rankId tabId := by
  simp [slotLimit, getRankBankTabSlotsPerDay, Guild.getRankInfo_of_ranks h.ranks, h.tabs]

theorem congr {u : ItemBank} (h : Withdrawn s t) (htabs : u.tabs = t.tabs)
    (hguild : u.guild = t.guild) (hmoves : u.moves = t.moves) : Withdrawn s u where
  tabs := htabs.trans h.tabs
  ranks := by
    rw [hguild]
    exact h.ranks
  members := by
    rw [hguild, hmoves]
    exact h.members
  limits := by
    rw [hmoves]
    exact h.limits

/-- Where the counter of a member allows a withdrawal from a tab, one more stays within the
limit. -/
theorem departs (h : Withdrawn s t) (hcounted : Counted s) (hsource : source < s.tabs)
    (hrights : t.MayWithdraw player source) (hmember : s.guild.getMember player = some member)
    (hrank : member.rankId ≠ GR_GUILDMASTER) :
    member.getBankTabWithdrawValue source + departures t.moves player source + 1 ≤
      s.slotLimit member.rankId source := by
  obtain ⟨now, hnow, hremaining⟩ := hrights
  rw [h.members player, hmember, map_some, some.injEq] at hnow
  subst hnow
  obtain ⟨hlength, hcounters⟩ := hcounted.counters member (Guild.getMember_mem hmember)
  obtain ⟨hfits, hover⟩ := hcounters source
  have hguid := Guild.getMember_guid hmember
  have htabs := hcounted.tabs
  have hlimit : s.slotLimit member.rankId source < 2 ^ 32 := UInt32.toNat_lt _
  have hwithin := h.limits player member hmember hrank source hsource
  have hvalue : (member.afterMoves t.moves).getBankTabWithdrawValue source =
      (member.getBankTabWithdrawValue source + departures t.moves member.guid source) % 2 ^ 32 :=
    Member.afterMoves_withdrawValue (by omega)
  rw [hguid] at hvalue
  have hexact : (member.getBankTabWithdrawValue source + departures t.moves player source) %
      2 ^ 32 = member.getBankTabWithdrawValue source + departures t.moves player source := by
    apply Nat.mod_eq_of_lt
    omega
  rw [hexact] at hvalue
  have hlimit' : t.slotLimit (member.afterMoves t.moves).rankId source =
      s.slotLimit member.rankId source := h.slotLimit_eq member.rankId source
  have hrank' : (member.afterMoves t.moves).rankId ≠ GR_GUILDMASTER := hrank
  have hlt : (member.afterMoves t.moves).getBankTabWithdrawValue source <
      t.slotLimit (member.afterMoves t.moves).rankId source := by
    apply withdrawValue_lt_slotLimit hrank' _ hremaining
    rw [hvalue, hlimit']
    omega
  rw [hvalue, hlimit'] at hlt
  exact hlt

/-- A move keeps the counters right: it is one more withdrawal when it leaves the tab, which the
player must have the right to. -/
theorem move (h : Withdrawn s t) (hcounted : Counted s) {u : ItemBank} {player source target : Nat}
    (hsource : source < s.tabs) (htabs : u.tabs = t.tabs)
    (hmoves : u.moves = t.moves ++ [⟨player, source, target⟩])
    (hguild : u.guild = t.guild.countMove player source target)
    (hrights : target = source ∨ t.MayWithdraw player source) : Withdrawn s u where
  tabs := htabs.trans h.tabs
  ranks := by
    rw [hguild, Guild.countMove_ranks]
    exact h.ranks
  members := by
    intro guid
    have hmember := h.members guid
    have hkept : player ≠ guid ∨ target = source →
        (s.guild.getMember guid).map (Member.afterMoves t.moves) =
          (s.guild.getMember guid).map (Member.afterMoves u.moves) := by
      intro hother
      cases hlookup : s.guild.getMember guid with
      | none => rfl
      | some member =>
        rw [map_some, map_some, hmoves, Member.afterMoves_other]
        rw [Guild.getMember_guid hlookup]
        exact hother
    rw [hguild, Guild.getMember_countMove, hmember]
    split
    · next hleaves =>
      obtain ⟨hleaves, hplayer⟩ := hleaves
      rw [hmoves]
      cases hlookup : s.guild.getMember guid with
      | none => rfl
      | some member =>
        have hguid := Guild.getMember_guid hlookup
        rw [map_some, map_some, map_some,
          Member.afterMoves_update hleaves, hguid, hplayer]
    · next hstays =>
      apply hkept
      omega
  limits := by
    intro guid member hmember hrank tabId htab
    rw [hmoves, departures_concat]
    split
    · next hleaves =>
      obtain ⟨rfl, rfl, hleaves⟩ := hleaves
      right
      rcases hrights with rfl | hrights
      · exact absurd rfl hleaves
      · have hdeparts := h.departs hcounted hsource hrights hmember hrank
        omega
    · rw [add_zero]
      exact h.limits guid member hmember hrank tabId htab

end Withdrawn

end ItemBank

end TrinityCore.Guilds
