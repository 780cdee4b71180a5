import TrinityCore.Groups.LootRollTally

/-!
# Runs of loot rolls

What every call keeps of the books, and what holds after every run whose calls are regular:
no pass by settings in `GroupLoot`, no second vote, and no leave of the last outstanding voter.
-/

namespace TrinityCore.Groups

open CountedMap Group Option StateMachine

/-- A vote is the player's first, or everyone's vote is already in. -/
def FirstVote (g : Group) (player : ObjectGuid) (guid : Nat) (choice : UInt8) (loot : LootRef) :
    Prop :=
  ∀ r vote, g.getRoll loot guid = some r → r.playerVote.lookup player = some vote →
    loot.itemsEmpty = false → voteOf choice ≠ none →
      vote = .NOT_EMITED_YET ∨ ¬ Outstanding r.playerVote

/-- A call after which counters and votes still agree. -/
def RollEvent.Regular (g : Group) : RollEvent → Prop
  | .groupLoot v loot => ∀ item ∈ loot.items, RolledItem v item →
      ∀ m ∈ v.members.guids, ¬ PassesBySettings v item m
  | .needBeforeGreed _ _ => True
  | .countRollVote player guid choice loot => FirstVote g player guid choice loot
  | .removeMember player _ => ∀ r ∈ g.rolls, player ∈ r.playerVote →
      Outstanding (r.playerVote.erase player)

/-- What holds between calls. -/
structure Books (h : History) : Prop where
  distinct : h.group.Distinct
  fresh : ∀ guid, h.group.nextItemGUID ≤ guid → h.ballot guid = none
  sound : ∀ r ∈ h.group.rolls, r.Sound
  recorded : ∀ r ∈ h.group.rolls, ∃ b, h.ballot r.itemGUID = some b ∧ b.votes = r.playerVote
  settled : ∀ guid b, h.ballot guid = some b → b.touched = true →
    (h.group.Pending guid ↔ Outstanding b.votes)
  untouched : ∀ guid b, h.ballot guid = some b → b.touched = false → h.group.Pending guid

namespace Books

variable {h : History}

/-- What the books say of the rolls in progress and of those that are settled. -/
theorem tallied (hb : Books h) : Tallied h :=
  ⟨fun r hr => ⟨(hb.sound r hr).toCounted, hb.recorded r hr⟩, hb.settled, hb.untouched⟩

theorem initial : Books {} := ⟨List.nodup_nil, fun _ _ => rfl, nofun, nofun, nofun, nofun⟩

/-- A pending roll was created. -/
theorem lt_next (hb : Books h) {r : Roll} (hr : r ∈ h.group.rolls) :
    r.itemGUID < h.group.nextItemGUID := by
  obtain ⟨b, hballot, -⟩ := hb.recorded r hr
  by_contra hle
  have hnone := hb.fresh r.itemGUID (Nat.le_of_not_lt hle)
  rw [hballot] at hnone
  cases hnone

/-- New rolls get ballots. -/
theorem grow (hb : Books h) {g : Group} (hg : h.group.Grown g) :
    Books ⟨g, openBallots g h.ballot⟩ := by
  obtain ⟨hnext, new, heq, hnodup, hnew⟩ := hg
  have hdistinct : g.Distinct := by
    show (g.rolls.map Roll.itemGUID).Nodup
    rw [heq, List.map_append]
    apply List.Nodup.append hb.distinct hnodup
    intro guid hold hguid
    obtain ⟨r, hr, rfl⟩ := List.mem_map.mp hold
    obtain ⟨s, hs, heqs⟩ := List.mem_map.mp hguid
    have hlt := hb.lt_next hr
    have hle := (hnew s hs).2.1
    omega
  have hkept : ∀ guid b, h.ballot guid = some b → openBallots g h.ballot guid = some b := by
    intro guid b hballot
    simp only [openBallots, hballot]
  -- a ballot is an old one, or the one of a pending roll
  have hcases : ∀ guid b, openBallots g h.ballot guid = some b →
      h.ballot guid = some b ∨ (b.touched = false ∧ g.Pending guid) := by
    intro guid b hballot
    unfold openBallots at hballot
    split at hballot
    · next hold => exact .inl (hold.trans hballot)
    · obtain ⟨r, hfind, rfl⟩ := map_eq_some_iff.mp hballot
      exact .inr ⟨rfl, r, List.mem_of_find?_eq_some hfind, by simpa using List.find?_some hfind⟩
  have hpending : ∀ guid, h.group.Pending guid → g.Pending guid := by
    rintro guid ⟨r, hr, hguid⟩
    exact ⟨r, heq ▸ List.mem_append_left new hr, hguid⟩
  -- no new roll is for an item that has a ballot
  have hback : ∀ guid b, h.ballot guid = some b → g.Pending guid → h.group.Pending guid := by
    rintro guid b hballot ⟨r, hr, rfl⟩
    rw [heq] at hr
    rcases List.mem_append.mp hr with hr | hr
    · exact ⟨r, hr, rfl⟩
    · rw [hb.fresh _ (hnew r hr).2.1] at hballot
      cases hballot
  refine ⟨hdistinct, ?_, ?_, ?_, ?_, ?_⟩
  · intro guid hle
    have hle' : g.nextItemGUID ≤ guid := hle
    show openBallots g h.ballot guid = none
    have hnone : g.rolls.find? (·.itemGUID == guid) = none := by
      rw [List.find?_eq_none]
      intro r hr
      rw [heq] at hr
      have hlt : r.itemGUID < g.nextItemGUID := by
        rcases List.mem_append.mp hr with hr | hr
        · exact Nat.lt_of_lt_of_le (hb.lt_next hr) hnext
        · exact (hnew r hr).2.2
      simp only [beq_iff_eq]
      omega
    simp only [openBallots, hb.fresh guid (Nat.le_trans hnext hle'), hnone, map_none]
  · intro r hr
    rw [heq] at hr
    rcases List.mem_append.mp hr with hr | hr
    · exact hb.sound r hr
    · exact (hnew r hr).1
  · intro r hr
    have hr' : r ∈ h.group.rolls ++ new := heq ▸ hr
    rcases List.mem_append.mp hr' with hold | hnewr
    · obtain ⟨b, hballot, hvotes⟩ := hb.recorded r hold
      exact ⟨b, hkept _ b hballot, hvotes⟩
    · have hnone := hb.fresh _ (hnew r hnewr).2.1
      have hfind : g.rolls.find? (·.itemGUID == r.itemGUID) = some r := by
        cases hfind : g.rolls.find? (·.itemGUID == r.itemGUID) with
        | none => exact absurd (List.find?_eq_none.mp hfind r hr) (by simp)
        | some s =>
          have hs := hdistinct.eq (List.mem_of_find?_eq_some hfind) hr
            (by simpa using List.find?_some hfind)
          rw [hs]
      refine ⟨⟨r.playerVote, false⟩, ?_, rfl⟩
      simp only [openBallots, hnone, hfind, map_some]
  · intro guid b hballot htouched
    rcases hcases guid b hballot with hold | ⟨hnot, -⟩
    · rw [← hb.settled guid b hold htouched]
      exact ⟨hback guid b hold, hpending guid⟩
    · rw [hnot] at htouched
      cases htouched
  · intro guid b hballot huntouched
    rcases hcases guid b hballot with hold | ⟨-, hpend⟩
    · exact hpending guid (hb.untouched guid b hold huntouched)
    · exact hpend

end Books

/-! ### Votes -/

/-- A cast vote leaves nobody outstanding who was not. -/
theorem not_outstanding_insert {votes : PlayerVote} (h : ¬ Outstanding votes)
    (player : ObjectGuid) {vote : RollVote} (hvote : vote ≠ .NOT_EMITED_YET) :
    ¬ Outstanding (votes.insert player vote) := by
  rintro ⟨k, v, hk, hv⟩
  rw [lookup_insert_if] at hk
  split at hk
  · cases hk
    exact hvote (by simpa using hv)
  · exact h ⟨k, v, hk, hv⟩

/-- A leave leaves nobody outstanding who was not. -/
theorem not_outstanding_erase {votes : PlayerVote} (h : ¬ Outstanding votes)
    (player : ObjectGuid) : ¬ Outstanding (votes.erase player) := by
  rintro ⟨k, v, hk, hv⟩
  rw [lookup_erase_if] at hk
  split at hk
  · cases hk
  · exact h ⟨k, v, hk, hv⟩

theorem Ballot.not_outstanding_cast {b : Ballot} (h : ¬ Outstanding b.votes)
    (player : ObjectGuid) (choice : UInt8) : ¬ Outstanding (b.cast player choice).votes := by
  unfold Ballot.cast
  split
  · cases hv : voteOf choice with
    | none => exact h
    | some vote => exact not_outstanding_insert h player (voteOf_cast hv).1
  · exact h

variable {player : ObjectGuid}

/-- A cast vote is entered as the code enters it. -/
theorem Ballot.cast_eq {b : Ballot} {r : Roll} (choice : UInt8) (hvotes : b.votes = r.playerVote)
    (hmem : player ∈ r.playerVote) :
    b.cast player choice = ⟨(r.castVote player choice).playerVote, true⟩ := by
  rw [Ballot.cast, hvotes, if_pos hmem, Roll.castVote_eq]
  cases voteOf choice <;> rfl

/-- A ballot without the player does not change. -/
theorem Ballot.cast_of_not_mem {b : Ballot} (choice : UInt8) (h : player ∉ b.votes) :
    b.cast player choice = b := if_neg h

theorem itemGUID_castVote (r : Roll) (player : ObjectGuid) (choice : UInt8) :
    (r.castVote player choice).itemGUID = r.itemGUID := by
  rw [Roll.castVote_eq]
  cases voteOf choice <;> rfl

/-- After a regular vote the counters decide rightly: a roll found complete has nobody
outstanding, and any other is sound and has someone. -/
theorem Roll.Sound.vote {r : Roll} (h : r.Sound) {vote : RollVote} {choice : UInt8}
    (hvote : r.playerVote.lookup player = some vote)
    (hfirst : voteOf choice ≠ none → vote = .NOT_EMITED_YET ∨ ¬ Outstanding r.playerVote) :
    ((r.castVote player choice).allVoted = true →
      ¬ Outstanding (r.castVote player choice).playerVote) ∧
    ((r.castVote player choice).allVoted = false →
      (r.castVote player choice).Sound ∧ Outstanding (r.castVote player choice).playerVote) := by
  -- a sound result is decided by its counters
  have hsound : (r.castVote player choice).Sound →
      ((r.castVote player choice).allVoted = true →
        ¬ Outstanding (r.castVote player choice).playerVote) ∧
      ((r.castVote player choice).allVoted = false →
        (r.castVote player choice).Sound ∧ Outstanding (r.castVote player choice).playerVote) := by
    intro hs
    refine ⟨hs.allVoted_iff.mp, fun hnot => ⟨hs, ?_⟩⟩
    by_contra hout
    rw [hs.allVoted_iff.mpr hout] at hnot
    cases hnot
  cases hv : voteOf choice with
  | none =>
    apply hsound
    rw [Roll.castVote_eq, hv]
    exact h
  | some cast =>
    rcases hfirst (by rw [hv]; exact nofun) with rfl | hdone
    · exact hsound (h.castVote choice hvote)
    · refine ⟨fun _ => ?_, fun hnot => ?_⟩
      · rw [Roll.castVote_eq, hv]
        exact not_outstanding_insert hdone player (voteOf_cast hv).1
      · rw [h.allVoted_castVote player choice hdone] at hnot
        cases hnot

/-- A vote that is not taken changes nothing. -/
theorem Group.countRollVote_untaken (g : Group) (player : ObjectGuid) (guid : Nat)
    (choice : UInt8) {loot : LootRef} (h : (loot.isValid && !loot.itemsEmpty) = false) :
    g.countRollVote player guid choice loot = g := by
  unfold Group.countRollVote
  cases hvalid : loot.isValid with
  | false =>
    have hnone : g.getRoll loot guid = none := by
      rw [Group.getRoll, hvalid]
      simp
    simp only [hnone]
  | true =>
    have hempty : loot.itemsEmpty = true := by
      rw [hvalid] at h
      simpa using h
    cases g.getRoll loot guid with
    | none => rfl
    | some roll =>
      simp only [hempty, Bool.and_self, if_true]
      cases roll.playerVote.lookup player <;> rfl

namespace Books

variable {h : History}

/-- One roll gets new votes: it stays when someone is outstanding, and goes otherwise. -/
theorem replace (hb : Books h) {g : Group} {roll : Roll} {P : Prop}
    (hd : g.Distinct) (hnext : g.nextItemGUID = h.group.nextItemGUID)
    (hold : h.group.Pending roll.itemGUID)
    (hrolls : ∀ r, r ∈ g.rolls ↔ (r = roll ∧ P) ∨ (r ∈ h.group.rolls ∧ r.itemGUID ≠ roll.itemGUID))
    (hstays : P ↔ Outstanding roll.playerVote) (hsound : P → roll.Sound)
    {ballot : Nat → Option Ballot} (hself : ballot roll.itemGUID = some ⟨roll.playerVote, true⟩)
    (hother : ∀ k, k ≠ roll.itemGUID → ballot k = h.ballot k) : Books ⟨g, ballot⟩ := by
  have hpending : ∀ k, k ≠ roll.itemGUID → (g.Pending k ↔ h.group.Pending k) := by
    intro k hk
    constructor
    · rintro ⟨r, hr, rfl⟩
      rcases (hrolls r).mp hr with ⟨rfl, -⟩ | ⟨hr, -⟩
      · exact absurd rfl hk
      · exact ⟨r, hr, rfl⟩
    · rintro ⟨r, hr, rfl⟩
      exact ⟨r, (hrolls r).mpr (.inr ⟨hr, hk⟩), rfl⟩
  have hthis : g.Pending roll.itemGUID ↔ P := by
    constructor
    · rintro ⟨r, hr, hguid⟩
      rcases (hrolls r).mp hr with ⟨-, hs⟩ | ⟨-, hne⟩
      · exact hs
      · exact absurd hguid hne
    · intro hs
      exact ⟨roll, (hrolls roll).mpr (.inl ⟨rfl, hs⟩), rfl⟩
  obtain ⟨old, holdmem, holdguid⟩ := hold
  refine ⟨hd, ?_, ?_, ?_, ?_, ?_⟩
  · intro k hk
    have hle : h.group.nextItemGUID ≤ k := hnext ▸ hk
    have hlt := hb.lt_next holdmem
    rw [← hb.fresh k hle]
    apply hother
    omega
  · intro r hr
    rcases (hrolls r).mp hr with ⟨rfl, hs⟩ | ⟨hr, -⟩
    · exact hsound hs
    · exact hb.sound r hr
  · intro r hr
    rcases (hrolls r).mp hr with ⟨rfl, -⟩ | ⟨hr, hne⟩
    · exact ⟨_, hself, rfl⟩
    · obtain ⟨b, hballot, hvotes⟩ := hb.recorded r hr
      exact ⟨b, (hother _ hne).trans hballot, hvotes⟩
  · intro k b hballot htouched
    have hballot' : ballot k = some b := hballot
    by_cases hk : k = roll.itemGUID
    · subst hk
      rw [hself] at hballot'
      cases hballot'
      exact hthis.trans hstays
    · rw [hother k hk] at hballot'
      exact (hpending k hk).trans (hb.settled k b hballot' htouched)
  · intro k b hballot huntouched
    have hballot' : ballot k = some b := hballot
    by_cases hk : k = roll.itemGUID
    · subst hk
      rw [hself] at hballot'
      cases hballot'
      cases huntouched
    · rw [hother k hk] at hballot'
      exact (hpending k hk).mpr (hb.untouched k b hballot' huntouched)

/-- A taken vote, entered in the ballot. -/
theorem vote (hb : Books h) {guid : Nat} {choice : UInt8} {loot : LootRef}
    (hfirst : FirstVote h.group player guid choice loot)
    (htaken : (loot.isValid && !loot.itemsEmpty) = true) :
    Books ⟨h.group.countRollVote player guid choice loot,
      fun k => if k = guid then (h.ballot k).map (·.cast player choice) else h.ballot k⟩ := by
  obtain ⟨hvalid, hitems⟩ := Bool.and_eq_true_iff.mp htaken
  have hitems' : loot.itemsEmpty = false := by simpa using hitems
  cases hfind : h.group.getRoll loot guid with
  | none =>
    -- the roll was resolved, or never existed
    have hgone : ¬ h.group.Pending guid := by
      rintro ⟨r, hr, hguid⟩
      have hnot := List.find?_eq_none.mp hfind r hr
      simp [hvalid, hguid] at hnot
    have hsame : h.group.countRollVote player guid choice loot = h.group := by
      simp only [Group.countRollVote, hfind]
    rw [hsame]
    refine ⟨hb.distinct, ?_, hb.sound, ?_, ?_, ?_⟩
    · intro k hk
      show (if k = guid then (h.ballot k).map _ else h.ballot k) = none
      rw [hb.fresh k hk]
      split <;> rfl
    · intro r hr
      obtain ⟨b, hballot, hvotes⟩ := hb.recorded r hr
      exact ⟨b, (if_neg fun heq => hgone ⟨r, hr, heq⟩).trans hballot, hvotes⟩
    · intro k b hballot htouched
      have hballot' : (if k = guid then (h.ballot k).map (·.cast player choice)
        else h.ballot k) = some b := hballot
      by_cases hk : k = guid
      · rw [if_pos hk] at hballot'
        obtain ⟨b', hb', rfl⟩ := map_eq_some_iff.mp hballot'
        subst hk
        have hold : ¬ Outstanding b'.votes := by
          cases ht : b'.touched with
          | false => exact absurd (hb.untouched k b' hb' ht) hgone
          | true => exact fun hout => hgone ((hb.settled k b' hb' ht).mpr hout)
        exact iff_of_false hgone (Ballot.not_outstanding_cast hold player choice)
      · rw [if_neg hk] at hballot'
        exact hb.settled k b hballot' htouched
    · intro k b hballot huntouched
      have hballot' : (if k = guid then (h.ballot k).map (·.cast player choice)
        else h.ballot k) = some b := hballot
      by_cases hk : k = guid
      · rw [if_pos hk] at hballot'
        obtain ⟨b', hb', rfl⟩ := map_eq_some_iff.mp hballot'
        have hold : b'.touched = false := by
          unfold Ballot.cast at huntouched
          split at huntouched
          · cases huntouched
          · exact huntouched
        exact hb.untouched k b' hb' hold
      · rw [if_neg hk] at hballot'
        exact hb.untouched k b hballot' huntouched
  | some roll =>
    have hmem : roll ∈ h.group.rolls := List.mem_of_find?_eq_some hfind
    have hguid : roll.itemGUID = guid := by
      have hp := List.find?_some hfind
      rw [Bool.and_eq_true, beq_iff_eq] at hp
      exact hp.2
    subst hguid
    obtain ⟨b, hballot, hvotes⟩ := hb.recorded roll hmem
    cases hvote : roll.playerVote.lookup player with
    | none =>
      have hsame : h.group.countRollVote player roll.itemGUID choice loot = h.group := by
        simp only [Group.countRollVote, hfind, hvote]
      have hballots : (fun k => if k = roll.itemGUID then (h.ballot k).map (·.cast player choice)
          else h.ballot k) = h.ballot := by
        funext k
        split
        · next hk =>
          have hnot : player ∉ b.votes := hvotes ▸ AList.lookup_eq_none.mp hvote
          rw [hk, hballot, map_some, Ballot.cast_of_not_mem choice hnot]
        · rfl
      rw [hsame, hballots]
      exact hb
    | some vote =>
      have hin : player ∈ roll.playerVote := AList.lookup_isSome.mp (by rw [hvote]; rfl)
      obtain ⟨hdone, hyet⟩ := (hb.sound roll hmem).vote hvote (hfirst roll vote hfind hvote hitems')
      have hsame : h.group.countRollVote player roll.itemGUID choice loot =
          if (roll.castVote player choice).allVoted then h.group.countTheRoll roll.itemGUID
          else h.group.setRoll (roll.castVote player choice) := by
        simp only [Group.countRollVote, hfind, hvote, hitems', Bool.and_false, Bool.false_eq_true,
          if_false]
      have hitem := itemGUID_castVote roll player choice
      have hpend : h.group.Pending (roll.castVote player choice).itemGUID := ⟨roll, hmem, hitem.symm⟩
      have hself : (if (roll.castVote player choice).itemGUID = roll.itemGUID then
          (h.ballot (roll.castVote player choice).itemGUID).map (·.cast player choice)
          else h.ballot (roll.castVote player choice).itemGUID)
          = some ⟨(roll.castVote player choice).playerVote, true⟩ := by
        rw [if_pos hitem, hitem, hballot, map_some, Ballot.cast_eq choice hvotes hin]
      have hother : ∀ k, k ≠ (roll.castVote player choice).itemGUID →
          (if k = roll.itemGUID then (h.ballot k).map (·.cast player choice) else h.ballot k)
            = h.ballot k := by
        intro k hk
        exact if_neg (hitem ▸ hk)
      rw [hsame]
      cases hall : (roll.castVote player choice).allVoted with
      | true =>
        apply hb.replace (P := False) (hb.distinct.countTheRoll _) rfl hpend ?_ ?_ nofun
          hself hother
        · intro r
          rw [mem_countTheRoll hb.distinct, hitem]
          simp
        · exact iff_of_false id (hdone hall)
      | false =>
        apply hb.replace (P := True) (hb.distinct.setRoll _) rfl hpend ?_ ?_
          (fun _ => (hyet hall).1) hself hother
        · intro r
          rw [mem_setRoll]
          simp [hpend]
        · exact iff_of_true trivial (hyet hall).2

/-- A leave touches the ballots the player is in, and only those. -/
theorem leave_votes (b : Ballot) (player : ObjectGuid) : (b.leave player).votes =
    if player ∈ b.votes then b.votes.erase player else b.votes := by
  unfold Ballot.leave
  split <;> rfl

theorem nextItemGUID_countRollVote (g : Group) (player : ObjectGuid) (guid : Nat)
    (choice : UInt8) (loot : LootRef) :
    (g.countRollVote player guid choice loot).nextItemGUID = g.nextItemGUID := by
  unfold Group.countRollVote
  split
  · rfl
  split
  · rfl
  split
  · rfl
  show (if _ then _ else _ : Group).nextItemGUID = _
  split <;> rfl

theorem nextItemGUID_removeMember (g : Group) (player : ObjectGuid) (loot : Nat → LootRef) :
    (g.removeMember player loot).nextItemGUID = g.nextItemGUID := by
  unfold Group.removeMember
  generalize g.rolls.map Roll.itemGUID = guids
  induction guids generalizing g with
  | nil => rfl
  | cons k rest ih =>
    rw [List.foldl_cons, ih]
    unfold removeFromRoll
    split
    · rfl
    · split
      · rfl
      · exact nextItemGUID_countRollVote _ player k MAX_ROLL_TYPE (loot k)

/-- A leave after which every roll the player was in has someone outstanding. -/
theorem remove (hb : Books h) (loot : Nat → LootRef)
    (hout : ∀ r ∈ h.group.rolls, player ∈ r.playerVote → Outstanding (r.playerVote.erase player)) :
    Books ⟨h.group.removeMember player loot, fun k => (h.ballot k).map (·.leave player)⟩ := by
  have hrolls := rolls_removeMember hb.distinct player loot
  have hmem : ∀ r, r ∈ (h.group.removeMember player loot).rolls ↔
      ∃ s ∈ h.group.rolls, dropVoter player s = r := by
    intro r
    rw [hrolls, List.mem_map]
  have hpending : ∀ k, (h.group.removeMember player loot).Pending k ↔ h.group.Pending k := by
    intro k
    constructor
    · rintro ⟨r, hr, rfl⟩
      obtain ⟨s, hs, rfl⟩ := (hmem r).mp hr
      exact ⟨s, hs, (itemGUID_dropVoter player s).symm⟩
    · rintro ⟨s, hs, rfl⟩
      exact ⟨_, (hmem _).mpr ⟨s, hs, rfl⟩, itemGUID_dropVoter player s⟩
  refine ⟨distinct_of_map_eq (itemGUID_dropVoter player) hb.distinct hrolls, ?_, ?_, ?_, ?_, ?_⟩
  · intro k hk
    have hle : h.group.nextItemGUID ≤ k := by
      rw [← nextItemGUID_removeMember h.group player loot]
      exact hk
    show (h.ballot k).map _ = none
    rw [hb.fresh k hle]
    rfl
  · intro r hr
    obtain ⟨s, hs, rfl⟩ := (hmem r).mp hr
    unfold dropVoter
    split
    · exact hb.sound s hs
    · next vote hvote => exact (hb.sound s hs).removeVoter hvote
  · intro r hr
    obtain ⟨s, hs, rfl⟩ := (hmem r).mp hr
    obtain ⟨b, hballot, hvotes⟩ := hb.recorded s hs
    refine ⟨b.leave player, ?_, ?_⟩
    · show (h.ballot (dropVoter player s).itemGUID).map _ = _
      rw [itemGUID_dropVoter, hballot]
      rfl
    · rw [leave_votes, playerVote_dropVoter, hvotes]
  · intro k b hballot htouched
    obtain ⟨old, hold, rfl⟩ := map_eq_some_iff.mp hballot
    rw [hpending k]
    by_cases hin : player ∈ old.votes
    · rw [leave_votes, if_pos hin]
      constructor
      · rintro ⟨r, hr, rfl⟩
        obtain ⟨b, hballot', hvotes⟩ := hb.recorded r hr
        rw [hold] at hballot'
        cases hballot'
        rw [hvotes] at hin ⊢
        exact hout r hr hin
      · intro hleft
        by_contra hgone
        have hdone : ¬ Outstanding old.votes := by
          cases ht : old.touched with
          | false => exact absurd (hb.untouched k old hold ht) hgone
          | true => exact fun ho => hgone ((hb.settled k old hold ht).mpr ho)
        exact not_outstanding_erase hdone player hleft
    · have hsame : old.leave player = old := if_neg hin
      rw [hsame] at htouched ⊢
      exact hb.settled k old hold htouched
  · intro k b hballot huntouched
    obtain ⟨old, hold, rfl⟩ := map_eq_some_iff.mp hballot
    rw [hpending k]
    have ht : old.touched = false := by
      unfold Ballot.leave at huntouched
      split at huntouched
      · cases huntouched
      · exact huntouched
    exact hb.untouched k old hold ht

/-- Every regular call keeps the books. -/
theorem step (hb : Books h) (e : RollEvent) (he : e.Regular h.group) : Books (h.step e) := by
  cases e with
  | groupLoot v loot => exact hb.grow (grown_groupLoot h.group he)
  | needBeforeGreed v loot => exact hb.grow (grown_needBeforeGreed v loot h.group)
  | countRollVote player guid choice loot =>
    cases htaken : loot.isValid && !loot.itemsEmpty with
    | true =>
      have hvote := hb.vote he htaken
      simp only [History.step, htaken, if_true]
      exact hvote
    | false =>
      have hsame := h.group.countRollVote_untaken player guid choice htaken
      simp only [History.step, htaken, Bool.false_eq_true, if_false, Group.step, hsame]
      exact hb
  | removeMember player loot => exact hb.remove loot he

end Books

/-- After every run of regular calls the counters are the numbers of votes, and a roll is
resolved exactly when its last outstanding voter has voted. -/
theorem tallied_run (events : List RollEvent)
    (h : Admits History.step (fun h e => e.Regular h.group) {} events) :
    Tallied (run History.step {} events) :=
  (run_invariant_of_admits Books.initial (fun _ e hb he => hb.step e he) events h).tallied

/-- A vote by someone who has yet to vote is a first one. -/
theorem firstVote_of_yet {g : Group} {guid : Nat} {choice : UInt8} {loot : LootRef}
    (h : ((g.getRoll loot guid).bind fun r => r.playerVote.lookup player) = some .NOT_EMITED_YET) :
    FirstVote g player guid choice loot := by
  intro r vote hr hvote _ _
  rw [hr, bind_some, hvote] at h
  exact .inl (some.inj h)

/-- Three members in reach of a loot with one item above the threshold; the last of them
passes on loot by his settings if `passes`. -/
def threeMembers (passes : Bool) : Surroundings where
  members := ⟨[1, 2, 3], by decide, by decide⟩
  lootThreshold := 2
  getItemTemplate := fun _ => some { quality := 4 }
  getSession := fun _ => true
  isAtGroupRewardDistance := fun _ => true
  getPassOnGroupLoot := fun m => passes && m == 3
  getItemCount := fun _ _ => 0
  allowedForPlayer := fun _ _ => true

def oneItem : Loot := { items := [{ itemid := 50 }] }

def lootHere : LootRef := { isValid := true, itemsEmpty := false }

/-- The first of three members needs, the second leaves, the third passes. -/
theorem tallied_run_three : Tallied (run History.step {}
    [.groupLoot (threeMembers false) oneItem, .countRollVote 1 0 ROLL_NEED lootHere,
      .removeMember 2 fun _ => lootHere, .countRollVote 3 0 ROLL_PASS lootHere]) := by
  apply tallied_run
  refine ⟨?_, firstVote_of_yet (by decide), ?_, firstVote_of_yet (by decide), trivial⟩
  · intro item _ _ m _ hpass
    exact nomatch hpass.2.1
  · intro r hr _
    apply count_pos_iff.mp
    revert r
    decide

/-- The counters of the pending rolls, compared with the votes. -/
theorem Tallied.passes {h : History} (ht : Tallied h) :
    ∀ r ∈ h.group.rolls, r.totalPass.toNat = count (· == .PASS) r.playerVote :=
  fun r hr => (ht.counted r hr).1.pass

/-- The tally fails in three ways: a pass by settings is not counted, a second vote is counted
again, and a leave of the last outstanding voter leaves the roll pending. -/
theorem not_tallied :
    ¬ Tallied (run History.step {} [.groupLoot (threeMembers true) oneItem]) ∧
    ¬ Tallied (run History.step {} [.groupLoot (threeMembers false) oneItem,
      .countRollVote 1 0 ROLL_PASS lootHere, .countRollVote 1 0 ROLL_PASS lootHere]) ∧
    ¬ Tallied (run History.step {} [.groupLoot (threeMembers false) oneItem,
      .countRollVote 1 0 ROLL_NEED lootHere, .countRollVote 2 0 ROLL_PASS lootHere,
      .removeMember 3 fun _ => lootHere]) := by
  refine ⟨fun ht => ?_, fun ht => ?_, fun ht => ?_⟩
  · exact absurd ht.passes (by decide)
  · exact absurd ht.passes (by decide)
  · have hsettled := ht.settled 0 ⟨_, true⟩ rfl rfl
    have hout := count_pos_iff.mpr (hsettled.mp ⟨_, List.mem_cons_self, rfl⟩)
    exact absurd hout (by decide)

end TrinityCore.Groups
