import TrinityCore.Groups.LootRoll
import TrinityCore.Lib.StateMachine

/-!
# The tally of a loot roll

Beside the group runs a ledger that knows nothing of counters: for every roll ever created the
votes of the players still in it, and whether someone has voted or left since. The code agrees
with the ledger when its counters are the numbers of votes and a roll is pending exactly while
someone has yet to vote. It does so as long as nobody votes twice, no member passes on a roll
of `GroupLoot` by his settings, and the last outstanding voter does not leave.
-/

namespace TrinityCore.Groups

open CountedMap StateMachine

/-- The two votes that count as greed. -/
def RollVote.isGreed (v : RollVote) : Bool := v == .GREED || v == .DISENCHANT

/-- Someone has yet to vote. -/
def Outstanding (votes : PlayerVote) : Prop := CountedMap.Some (· == RollVote.NOT_EMITED_YET) votes

/-- The counters are the numbers of votes. -/
structure Roll.Counted (r : Roll) : Prop where
  players : r.totalPlayersRolling.toNat = r.playerVote.entries.length
  need : r.totalNeed.toNat = count (· == .NEED) r.playerVote
  greed : r.totalGreed.toNat = count RollVote.isGreed r.playerVote
  pass : r.totalPass.toNat = count (· == .PASS) r.playerVote

/-- The vote a choice stands for. -/
def voteOf (choice : UInt8) : Option RollVote :=
  if choice = ROLL_PASS then some .PASS
  else if choice = ROLL_NEED then some .NEED
  else if choice = ROLL_GREED then some .GREED
  else if choice = ROLL_DISENCHANT then some .DISENCHANT
  else none

/-! ### The ledger -/

/-- The votes of a roll, and whether one was cast or a voter has left. -/
structure Ballot where
  votes : PlayerVote
  touched : Bool

/-- The player's entry becomes the vote. -/
def Ballot.cast (b : Ballot) (player : ObjectGuid) (choice : UInt8) : Ballot :=
  if player ∈ b.votes then
    { votes := match voteOf choice with
        | some vote => b.votes.insert player vote
        | none => b.votes
      touched := true }
  else b

/-- The player's entry is dropped. -/
def Ballot.leave (b : Ballot) (player : ObjectGuid) : Ballot :=
  if player ∈ b.votes then { votes := b.votes.erase player, touched := true } else b

/-- The group and the ballots of every roll created so far. -/
structure History where
  group : Group := {}
  ballot : Nat → Option Ballot := fun _ => none

/-- A ballot for every roll that has none. -/
def openBallots (g : Group) (ballot : Nat → Option Ballot) (guid : Nat) : Option Ballot :=
  match ballot guid with
  | some b => some b
  | none => (g.rolls.find? (·.itemGUID == guid)).map fun r => ⟨r.playerVote, false⟩

/-- One call, entered in the ledger. Votes on a loot that is gone or emptied are not taken. -/
def History.step (h : History) (e : RollEvent) : History where
  group := h.group.step e
  ballot := match e with
    | .groupLoot _ _ => openBallots (h.group.step e) h.ballot
    | .needBeforeGreed _ _ => openBallots (h.group.step e) h.ballot
    | .countRollVote player guid choice loot =>
      if loot.isValid && !loot.itemsEmpty then
        fun k => if k = guid then (h.ballot k).map (·.cast player choice) else h.ballot k
      else h.ballot
    | .removeMember player _ => fun k => (h.ballot k).map (·.leave player)

/-- A roll for the item is pending. -/
def Group.Pending (g : Group) (guid : Nat) : Prop := ∃ r ∈ g.rolls, r.itemGUID = guid

/-- The code agrees with the ledger. -/
structure Tallied (h : History) : Prop where
  /-- A pending roll has the votes of its ballot, and counts them. -/
  counted : ∀ r ∈ h.group.rolls, r.Counted ∧
    ∃ b, h.ballot r.itemGUID = some b ∧ b.votes = r.playerVote
  /-- Since a vote or a leave, a roll is pending exactly while someone has yet to vote. -/
  settled : ∀ guid b, h.ballot guid = some b → b.touched = true →
    (h.group.Pending guid ↔ Outstanding b.votes)
  /-- Before, it is pending. -/
  untouched : ∀ guid b, h.ballot guid = some b → b.touched = false → h.group.Pending guid

/-! ### One roll -/

/-- A roll whose counters are right, of no more voters than a raid has. -/
structure Roll.Sound (r : Roll) : Prop extends r.Counted where
  size : r.playerVote.entries.length ≤ MAXRAIDSIZE
  valid : count (· == .NOT_VALID) r.playerVote = 0

/-- Every vote is of one of five kinds. -/
theorem RollVote.kinds (v : RollVote) :
    (if v == .PASS then 1 else 0) + (if v == .NEED then 1 else 0)
      + (if v.isGreed then 1 else 0) + (if v == .NOT_EMITED_YET then 1 else 0)
      + (if v == .NOT_VALID then 1 else 0) = 1 := by
  cases v <;> rfl

/-- Every entry is of one of the five kinds. -/
theorem count_partition (m : PlayerVote) :
    count (· == .PASS) m + count (· == .NEED) m + count RollVote.isGreed m
      + count (· == .NOT_EMITED_YET) m + count (· == .NOT_VALID) m = m.entries.length := by
  show m.entries.countP _ + m.entries.countP _ + m.entries.countP _ + m.entries.countP _
    + m.entries.countP _ = _
  induction m.entries with
  | nil => rfl
  | cons e l ih =>
    simp only [List.countP_cons, List.length_cons]
    have hkind := e.2.kinds
    beta_reduce at ih ⊢
    omega

/-- Nobody is outstanding when no entry is. -/
theorem not_outstanding_iff {votes : PlayerVote} :
    ¬ Outstanding votes ↔ count (· == .NOT_EMITED_YET) votes = 0 := by
  rw [Outstanding, ← count_pos_iff]
  omega

variable {r : Roll} {n choice : UInt8}

/-- The counters say that everyone has voted when everyone has. -/
theorem Roll.Sound.allVoted_iff (h : r.Sound) : r.allVoted = true ↔ ¬ Outstanding r.playerVote := by
  have hpart := count_partition r.playerVote
  rw [not_outstanding_iff, Roll.allVoted, decide_eq_true_iff, h.players, h.need, h.greed, h.pass]
  have hvalid := h.valid
  omega

/-- An empty roll. -/
theorem Roll.sound_empty (guid : Nat) : ({ itemGUID := guid } : Roll).Sound :=
  ⟨⟨rfl, rfl, rfl, rfl⟩, Nat.zero_le _, rfl⟩

/-- A counter below the size of a raid goes up by one. -/
theorem toNat_add_one (h : n.toNat ≤ MAXRAIDSIZE) : (n + 1).toNat = n.toNat + 1 := by
  have hn : n.toNat ≤ 40 := h
  rw [UInt8.toNat_add]
  show (n.toNat + 1) % 256 = _
  omega

/-- A positive counter goes down by one. -/
theorem toNat_sub_one (h : 0 < n.toNat) : (n - 1).toNat = n.toNat - 1 := by
  have hn : n.toNat < 256 := n.toNat_lt
  rw [UInt8.toNat_sub]
  show (2 ^ 8 - 1 + n.toNat) % 256 = _
  omega

/-- A counter of votes stays within the size of a raid. -/
theorem Roll.Sound.count_le (h : r.Sound) (p : RollVote → Bool) :
    count p r.playerVote ≤ MAXRAIDSIZE := Nat.le_trans count_le_length h.size

/-- A fresh member with a counted pass or no vote yet keeps a roll sound. -/
theorem Roll.Sound.enter (h : r.Sound) {member : ObjectGuid}
    (hfresh : r.playerVote.lookup member = none) (hsize : r.playerVote.entries.length < MAXRAIDSIZE)
    {vote : RollVote} {pass : UInt8}
    (hvote : (vote = .PASS ∧ pass = 1) ∨ (vote = .NOT_EMITED_YET ∧ pass = 0)) :
    (r.enter member vote pass).Sound := by
  have hcount : ∀ p, count p (r.playerVote.insert member vote)
      = count p r.playerVote + if p vote then 1 else 0 := fun p => count_insert_fresh hfresh
  have hlen : (r.playerVote.insert member vote).entries.length = r.playerVote.entries.length + 1 := by
    rw [← count_true, hcount, count_true]
    simp
  have hplayers : (r.totalPlayersRolling + 1).toNat = r.totalPlayersRolling.toNat + 1 := by
    apply toNat_add_one
    rw [h.players]
    exact h.size
  refine ⟨⟨?_, ?_, ?_, ?_⟩, ?_, ?_⟩
  · show (r.totalPlayersRolling + 1).toNat = (r.playerVote.insert member vote).entries.length
    rw [hplayers, hlen, h.players]
  · show r.totalNeed.toNat = count _ (r.playerVote.insert member vote)
    rw [hcount, h.need]
    obtain ⟨rfl, -⟩ | ⟨rfl, -⟩ := hvote <;> rfl
  · show r.totalGreed.toNat = count _ (r.playerVote.insert member vote)
    rw [hcount, h.greed]
    obtain ⟨rfl, -⟩ | ⟨rfl, -⟩ := hvote <;> rfl
  · show (r.totalPass + pass).toNat = count _ (r.playerVote.insert member vote)
    rw [hcount, ← h.pass]
    obtain ⟨rfl, rfl⟩ | ⟨rfl, rfl⟩ := hvote
    · apply toNat_add_one
      rw [h.pass]
      exact h.count_le _
    · simp
  · show (r.playerVote.insert member vote).entries.length ≤ MAXRAIDSIZE
    omega
  · show count _ (r.playerVote.insert member vote) = 0
    rw [hcount, h.valid]
    obtain ⟨rfl, -⟩ | ⟨rfl, -⟩ := hvote <;> rfl

/-! ### Filling a roll -/

/-- A round of a loop over the members leaves the member out, or enters him with a pass that is
counted or with no vote yet. -/
def Fair (enter : Roll → ObjectGuid → Roll) (member : ObjectGuid) : Prop :=
  ∀ r, enter r member = r ∨ ∃ vote pass, enter r member = r.enter member vote pass ∧
    ((vote = .PASS ∧ pass = 1) ∨ (vote = .NOT_EMITED_YET ∧ pass = 0))

/-- What a loop over the members keeps: a sound roll with room for the members to come. -/
theorem Roll.Sound.foldl_enter {enter : Roll → ObjectGuid → Roll} {members : List ObjectGuid}
    (hnodup : members.Nodup) (hfair : ∀ m ∈ members, Fair enter m) (h : r.Sound)
    (hfresh : ∀ m ∈ members, r.playerVote.lookup m = none)
    (hsize : r.playerVote.entries.length + members.length ≤ MAXRAIDSIZE) :
    (members.foldl enter r).Sound ∧ (members.foldl enter r).itemGUID = r.itemGUID := by
  induction members generalizing r with
  | nil => exact ⟨h, rfl⟩
  | cons m rest ih =>
    obtain ⟨hm, hrest⟩ := List.nodup_cons.mp hnodup
    have hfairRest : ∀ k ∈ rest, Fair enter k := fun k hk => hfair k (List.mem_cons_of_mem m hk)
    rw [List.length_cons] at hsize
    rw [List.foldl_cons]
    rcases hfair m List.mem_cons_self r with heq | ⟨vote, pass, heq, hvote⟩
    · rw [heq]
      apply ih hrest hfairRest h
      · intro k hk
        exact hfresh k (List.mem_cons_of_mem m hk)
      · omega
    · have hfreshM : r.playerVote.lookup m = none := hfresh m List.mem_cons_self
      have hlen : (r.playerVote.insert m vote).entries.length
          = r.playerVote.entries.length + 1 := by
        rw [← count_true, count_insert_fresh hfreshM, count_true]
        simp
      rw [heq]
      show (rest.foldl enter (r.enter m vote pass)).Sound ∧ _ = (r.enter m vote pass).itemGUID
      apply ih hrest hfairRest (h.enter hfreshM (by omega) hvote)
      · intro k hk
        show (r.playerVote.insert m vote).lookup k = none
        rw [lookup_insert_if, if_neg (fun hkm : k = m => hm (hkm ▸ hk))]
        exact hfresh k (List.mem_cons_of_mem m hk)
      · show (r.playerVote.insert m vote).entries.length + rest.length ≤ MAXRAIDSIZE
        omega

/-- The roll filled by a fair loop. -/
theorem Roll.sound_filled {members : Members} {enter : Roll → ObjectGuid → Roll} {guid : Nat}
    (hfair : ∀ m ∈ members.guids, Fair enter m) :
    (members.guids.foldl enter { itemGUID := guid }).Sound ∧
      (members.guids.foldl enter { itemGUID := guid }).itemGUID = guid := by
  apply Roll.Sound.foldl_enter members.nodup hfair (Roll.sound_empty guid)
  · intro m hm
    rfl
  · show 0 + members.guids.length ≤ MAXRAIDSIZE
    rw [Nat.zero_add]
    exact members.size_le

variable (v : Surroundings) (player : ObjectGuid)

theorem fair_enterQuest (item : LootItem) (m : ObjectGuid) : Fair (Roll.enterQuest v item) m := by
  intro r
  unfold Roll.enterQuest
  split
  · exact .inr ⟨_, _, rfl, .inr ⟨rfl, rfl⟩⟩
  · exact .inl rfl

theorem fair_enterNeedBeforeGreed (item : LootItem) (m : ObjectGuid) :
    Fair (Roll.enterNeedBeforeGreed v item) m := by
  intro r
  unfold Roll.enterNeedBeforeGreed
  split
  · split
    · exact .inr ⟨_, _, rfl, .inl ⟨rfl, rfl⟩⟩
    · exact .inr ⟨_, _, rfl, .inr ⟨rfl, rfl⟩⟩
  · exact .inl rfl

/-- The member passes by his settings on an item he could roll on. -/
def PassesBySettings (item : LootItem) (m : ObjectGuid) : Prop :=
  v.inReach m = true ∧ v.getPassOnGroupLoot m = true ∧ CanRollOnItem v item m = true

/-- The loop of `GroupLoot` does not count that pass. -/
theorem fair_enterGroupLoot {v : Surroundings} {item : LootItem} {m : ObjectGuid}
    (h : ¬ PassesBySettings v item m) : Fair (Roll.enterGroupLoot v item) m := by
  intro r
  unfold Roll.enterGroupLoot
  by_cases hreach : v.inReach m = true
  · rw [if_pos hreach]
    by_cases hroll : CanRollOnItem v item m = true
    · have hpass : v.getPassOnGroupLoot m = false := by
        cases hp : v.getPassOnGroupLoot m with
        | false => rfl
        | true => exact absurd ⟨hreach, hp, hroll⟩ h
      rw [hroll, hpass]
      exact .inr ⟨_, _, rfl, .inr ⟨rfl, rfl⟩⟩
    · rw [Bool.not_eq_true] at hroll
      rw [hroll]
      exact .inr ⟨_, _, rfl, .inl ⟨rfl, rfl⟩⟩
  · rw [if_neg hreach]
    exact .inl rfl

/-! ### Votes -/

/-- The switch enters the vote a choice stands for and counts it. -/
theorem Roll.castVote_eq (r : Roll) (player : ObjectGuid) (choice : UInt8) :
    r.castVote player choice = match voteOf choice with
      | some vote => { r with
          totalNeed := r.totalNeed + if vote == .NEED then 1 else 0
          totalGreed := r.totalGreed + if vote.isGreed then 1 else 0
          totalPass := r.totalPass + if vote == .PASS then 1 else 0
          playerVote := r.playerVote.insert player vote }
      | none => r := by
  unfold Roll.castVote voteOf
  by_cases hpass : choice = ROLL_PASS
  · rw [if_pos hpass, if_pos hpass]
    simp [RollVote.isGreed]
  rw [if_neg hpass, if_neg hpass]
  by_cases hneed : choice = ROLL_NEED
  · rw [if_pos hneed, if_pos hneed]
    simp [RollVote.isGreed]
  rw [if_neg hneed, if_neg hneed]
  by_cases hgreed : choice = ROLL_GREED
  · rw [if_pos hgreed, if_pos hgreed]
    simp [RollVote.isGreed]
  rw [if_neg hgreed, if_neg hgreed]
  by_cases hdis : choice = ROLL_DISENCHANT
  · rw [if_pos hdis, if_pos hdis]
    simp [RollVote.isGreed]
  rw [if_neg hdis, if_neg hdis]

/-- What a choice stands for is a cast vote. -/
theorem voteOf_cast {vote : RollVote} (h : voteOf choice = some vote) :
    vote ≠ .NOT_EMITED_YET ∧ vote ≠ .NOT_VALID := by
  unfold voteOf at h
  repeat' split at h
  all_goals cases h
  all_goals exact ⟨nofun, nofun⟩

/-- A counter that goes up by one or stays. -/
theorem toNat_add_if {c : Prop} [Decidable c] (h : n.toNat ≤ MAXRAIDSIZE) :
    (n + if c then 1 else 0).toNat = n.toNat + if c then 1 else 0 := by
  split
  · exact toNat_add_one h
  · simp

/-- A first vote keeps a roll sound. -/
theorem Roll.Sound.castVote (h : r.Sound) {player : ObjectGuid} (choice : UInt8)
    (hyet : r.playerVote.lookup player = some .NOT_EMITED_YET) :
    (r.castVote player choice).Sound := by
  rw [Roll.castVote_eq]
  cases hv : voteOf choice with
  | none => exact h
  | some vote =>
    have hcount : ∀ p : RollVote → Bool, p .NOT_EMITED_YET = false →
        count p (r.playerVote.insert player vote)
          = count p r.playerVote + if p vote then 1 else 0 := by
      intro p hp
      have hins : count p (r.playerVote.insert player vote)
          + (if p .NOT_EMITED_YET then 1 else 0)
          = count p r.playerVote + if p vote then 1 else 0 := count_insert hyet
      rw [hp] at hins
      exact hins
    have hlen : (r.playerVote.insert player vote).entries.length
        = r.playerVote.entries.length := by
      have hins : count (fun _ => true) (r.playerVote.insert player vote) + (if true then 1 else 0)
          = count (fun _ => true) r.playerVote + if true then 1 else 0 := count_insert hyet
      rw [count_true, count_true] at hins
      exact Nat.add_right_cancel hins
    refine ⟨⟨?_, ?_, ?_, ?_⟩, ?_, ?_⟩
    · exact h.players.trans hlen.symm
    · show (r.totalNeed + _).toNat = count _ (r.playerVote.insert player vote)
      rw [hcount _ rfl, toNat_add_if (h.need ▸ h.count_le _), h.need]
    · show (r.totalGreed + _).toNat = count _ (r.playerVote.insert player vote)
      rw [hcount _ rfl, toNat_add_if (h.greed ▸ h.count_le _), h.greed]
    · show (r.totalPass + _).toNat = count _ (r.playerVote.insert player vote)
      rw [hcount _ rfl, toNat_add_if (h.pass ▸ h.count_le _), h.pass]
    · show (r.playerVote.insert player vote).entries.length ≤ MAXRAIDSIZE
      rw [hlen]
      exact h.size
    · show count _ (r.playerVote.insert player vote) = 0
      rw [hcount _ rfl, h.valid]
      have hne : (vote == .NOT_VALID) = false := by simpa using (voteOf_cast hv).2
      rw [hne]
      rfl

/-- When everyone has voted, one more vote leaves the counters saying so. -/
theorem Roll.Sound.allVoted_castVote (h : r.Sound) (player : ObjectGuid) (choice : UInt8)
    (hdone : ¬ Outstanding r.playerVote) : (r.castVote player choice).allVoted = true := by
  have hall := h.allVoted_iff.mpr hdone
  rw [Roll.castVote_eq]
  cases voteOf choice with
  | none => exact hall
  | some vote =>
    rw [Roll.allVoted, decide_eq_true_iff] at hall ⊢
    show (r.totalPass + _).toNat + (r.totalNeed + _).toNat + (r.totalGreed + _).toNat
      ≥ r.totalPlayersRolling.toNat
    rw [toNat_add_if (h.pass ▸ h.count_le _), toNat_add_if (h.need ▸ h.count_le _),
      toNat_add_if (h.greed ▸ h.count_le _)]
    omega

/-- A leaving voter's vote is uncounted. -/
theorem Roll.removeVoter_eq (r : Roll) (player : ObjectGuid) {vote : RollVote}
    (hvalid : vote ≠ .NOT_VALID) : r.removeVoter player vote = { r with
      totalPlayersRolling := r.totalPlayersRolling - 1
      totalNeed := r.totalNeed - if vote == .NEED then 1 else 0
      totalGreed := r.totalGreed - if vote.isGreed then 1 else 0
      totalPass := r.totalPass - if vote == .PASS then 1 else 0
      playerVote := r.playerVote.erase player } := by
  cases vote with
  | NOT_VALID => exact absurd rfl hvalid
  | _ => simp [Roll.removeVoter, RollVote.isGreed]

/-- A counter that goes down by one, being positive then, or stays. -/
theorem toNat_sub_if {c : Prop} [Decidable c] {k : Nat} (h : n.toNat = k + if c then 1 else 0) :
    (n - if c then 1 else 0).toNat = k := by
  by_cases hc : c
  · rw [if_pos hc] at h ⊢
    rw [toNat_sub_one (by omega), h]
    rfl
  · rw [if_neg hc] at h ⊢
    simpa using h

/-- A leave keeps a roll sound. -/
theorem Roll.Sound.removeVoter {r : Roll} (h : r.Sound) {player : ObjectGuid} {vote : RollVote}
    (hvote : r.playerVote.lookup player = some vote) : (r.removeVoter player vote).Sound := by
  have hcount : ∀ p : RollVote → Bool, count p r.playerVote
      = count p (r.playerVote.erase player) + if p vote then 1 else 0 := fun p => count_erase hvote
  have hvalid : vote ≠ .NOT_VALID := by
    intro heq
    have hzero := hcount (· == .NOT_VALID)
    rw [h.valid, heq] at hzero
    simp at hzero
  have hlen : r.playerVote.entries.length = (r.playerVote.erase player).entries.length + 1 := by
    have hall := hcount fun _ => true
    rwa [count_true, count_true] at hall
  rw [Roll.removeVoter_eq r player hvalid]
  refine ⟨⟨?_, ?_, ?_, ?_⟩, ?_, ?_⟩
  · show (r.totalPlayersRolling - 1).toNat = (r.playerVote.erase player).entries.length
    have hplayers := h.players
    rw [toNat_sub_one (by omega)]
    omega
  · exact toNat_sub_if (h.need.trans (hcount _))
  · exact toNat_sub_if (h.greed.trans (hcount _))
  · exact toNat_sub_if (h.pass.trans (hcount _))
  · show (r.playerVote.erase player).entries.length ≤ MAXRAIDSIZE
    have hsize := h.size
    omega
  · show count _ (r.playerVote.erase player) = 0
    have hzero := hcount (· == .NOT_VALID)
    rw [h.valid] at hzero
    omega

/-! ### The pending rolls -/

namespace Group

variable {g g' g'' : Group}

/-- The items of the pending rolls are distinct. -/
def Distinct (g : Group) : Prop := (g.rolls.map Roll.itemGUID).Nodup

theorem Distinct.eq (h : g.Distinct) {s : Roll} (hr : r ∈ g.rolls) (hs : s ∈ g.rolls)
    (heq : r.itemGUID = s.itemGUID) : r = s := List.inj_on_of_nodup_map h hr hs heq

/-- Erasing the first roll of an item from distinct ones leaves none. -/
theorem mem_eraseP {l : List Roll} (h : (l.map Roll.itemGUID).Nodup) (guid : Nat) (r : Roll) :
    r ∈ l.eraseP (·.itemGUID == guid) ↔ r ∈ l ∧ r.itemGUID ≠ guid := by
  induction l with
  | nil => simp
  | cons s rest ih =>
    obtain ⟨hs, hrest⟩ := List.nodup_cons.mp h
    by_cases hguid : s.itemGUID = guid
    · rw [List.eraseP_cons_of_pos (by simpa using hguid)]
      constructor
      · intro hr
        refine ⟨List.mem_cons_of_mem s hr, ?_⟩
        intro heq
        apply hs
        rw [hguid, ← heq]
        exact List.mem_map_of_mem hr
      · rintro ⟨hr, hne⟩
        rcases List.mem_cons.mp hr with rfl | hr
        · exact absurd hguid hne
        · exact hr
    · rw [List.eraseP_cons_of_neg (by simpa using hguid), List.mem_cons, List.mem_cons, ih hrest]
      constructor
      · rintro (rfl | ⟨hr, hne⟩)
        · exact ⟨.inl rfl, hguid⟩
        · exact ⟨.inr hr, hne⟩
      · rintro ⟨rfl | hr, hne⟩
        · exact .inl rfl
        · exact .inr ⟨hr, hne⟩

/-- The resolved roll is gone, and no other. -/
theorem mem_countTheRoll (h : g.Distinct) (guid : Nat) (r : Roll) :
    r ∈ (g.countTheRoll guid).rolls ↔ r ∈ g.rolls ∧ r.itemGUID ≠ guid := mem_eraseP h guid r

theorem Distinct.countTheRoll (h : g.Distinct) (guid : Nat) : (g.countTheRoll guid).Distinct :=
  h.sublist (List.Sublist.map _ List.eraseP_sublist)

/-- A write replaces the rolls for that item. -/
theorem mem_setRoll (roll r : Roll) : r ∈ (g.setRoll roll).rolls ↔
    (r = roll ∧ g.Pending roll.itemGUID) ∨ (r ∈ g.rolls ∧ r.itemGUID ≠ roll.itemGUID) := by
  show r ∈ g.rolls.map _ ↔ _
  rw [List.mem_map]
  constructor
  · rintro ⟨s, hs, rfl⟩
    by_cases heq : s.itemGUID = roll.itemGUID
    · rw [if_pos heq]
      exact .inl ⟨rfl, s, hs, heq⟩
    · rw [if_neg heq]
      exact .inr ⟨hs, heq⟩
  · rintro (⟨rfl, s, hs, heq⟩ | ⟨hr, hne⟩)
    · exact ⟨s, hs, if_pos heq⟩
    · exact ⟨r, hr, if_neg hne⟩

/-- A map over the rolls that keeps their items. -/
theorem distinct_of_map_eq {f : Roll → Roll} (hf : ∀ r, (f r).itemGUID = r.itemGUID)
    (h : g.Distinct) (heq : g'.rolls = g.rolls.map f) : g'.Distinct := by
  show (g'.rolls.map Roll.itemGUID).Nodup
  rw [heq, List.map_map]
  have hcomp : Roll.itemGUID ∘ f = Roll.itemGUID := funext hf
  rw [hcomp]
  exact h

theorem Distinct.setRoll (h : g.Distinct) (roll : Roll) : (g.setRoll roll).Distinct := by
  apply distinct_of_map_eq (f := fun r => if r.itemGUID = roll.itemGUID then roll else r) ?_ h rfl
  intro r
  by_cases heq : r.itemGUID = roll.itemGUID
  · rw [if_pos heq, heq]
  · rw [if_neg heq]

/-! ### New rolls -/

/-- Some sound rolls with fresh items were added. -/
structure Grown (g g' : Group) : Prop where
  next : g.nextItemGUID ≤ g'.nextItemGUID
  rolls : ∃ new, g'.rolls = g.rolls ++ new ∧ (new.map Roll.itemGUID).Nodup ∧
    ∀ r ∈ new, r.Sound ∧ g.nextItemGUID ≤ r.itemGUID ∧ r.itemGUID < g'.nextItemGUID

theorem Grown.refl (g : Group) : g.Grown g := ⟨Nat.le_refl _, [], by simp, List.nodup_nil, nofun⟩

theorem Grown.trans (h : g.Grown g') (h' : g'.Grown g'') : g.Grown g'' := by
  obtain ⟨hnext, new, heq, hnodup, hnew⟩ := h
  obtain ⟨hnext', new', heq', hnodup', hnew'⟩ := h'
  refine ⟨Nat.le_trans hnext hnext', new ++ new', ?_, ?_, ?_⟩
  · rw [heq', heq, List.append_assoc]
  · rw [List.map_append]
    apply List.Nodup.append hnodup hnodup'
    intro guid hguid hguid'
    obtain ⟨r, hr, rfl⟩ := List.mem_map.mp hguid
    obtain ⟨s, hs, heqs⟩ := List.mem_map.mp hguid'
    have hr' := (hnew r hr).2.2
    have hs' := (hnew' s hs).2.1
    omega
  · intro r hr
    rcases List.mem_append.mp hr with hr | hr
    · obtain ⟨hsound, hle, hlt⟩ := hnew r hr
      exact ⟨hsound, hle, by omega⟩
    · obtain ⟨hsound, hle, hlt⟩ := hnew' r hr
      exact ⟨hsound, by omega, hlt⟩

/-- A loop whose rounds add rolls adds rolls. -/
theorem Grown.foldl {α : Type} {f : Group → α → Group} {l : List α}
    (hf : ∀ (g : Group), ∀ a ∈ l, g.Grown (f g a)) (g : Group) : g.Grown (l.foldl f g) := by
  induction l generalizing g with
  | nil => exact Grown.refl g
  | cons a rest ih =>
    have hrest := ih (fun g b hb => hf g b (List.mem_cons_of_mem a hb)) (f g a)
    exact (hf g a List.mem_cons_self).trans hrest

/-- A fair loop over the members adds a sound roll, if any. -/
theorem grown_startRoll (g : Group) {members : Members} {enter : Roll → ObjectGuid → Roll}
    (hfair : ∀ m ∈ members.guids, Fair enter m) : g.Grown (g.startRoll members enter) := by
  obtain ⟨hsound, hguid⟩ := @Roll.sound_filled members enter g.nextItemGUID hfair
  refine ⟨Nat.le_succ _, ?_⟩
  by_cases hsome : (members.guids.foldl enter { itemGUID := g.nextItemGUID }).totalPlayersRolling > 0
  · refine ⟨[_], if_pos hsome, List.nodup_singleton _, ?_⟩
    intro r hr
    rw [List.mem_singleton.mp hr]
    refine ⟨hsound, Nat.le_of_eq hguid.symm, ?_⟩
    show _ < g.nextItemGUID + 1
    omega
  · exact ⟨[], (if_neg hsome).trans (List.append_nil _).symm, List.nodup_nil, nofun⟩

end Group

/-- `GroupLoot` opens a roll for the item. -/
def RolledItem (item : LootItem) : Prop :=
  item.freeforall = false ∧
    ∃ proto, v.getItemTemplate item.itemid = some proto ∧ proto.quality ≥ v.lootThreshold

namespace Group

variable {g : Group}

theorem grown_groupLootItem {v : Surroundings} {item : LootItem} (g : Group)
    (h : RolledItem v item → ∀ m ∈ v.members.guids, ¬ PassesBySettings v item m) :
    g.Grown (groupLootItem v g item) := by
  unfold groupLootItem
  split
  · exact Grown.refl g
  · next hfree =>
    split
    · exact Grown.refl g
    · next proto hproto =>
      split
      · next hquality =>
        have hrolled : RolledItem v item := ⟨by simpa using hfree, proto, hproto, hquality⟩
        exact grown_startRoll g fun m hm => fair_enterGroupLoot (h hrolled m hm)
      · exact Grown.refl g

theorem grown_groupLootQuestItem (g : Group) (item : LootItem) :
    g.Grown (groupLootQuestItem v g item) := by
  unfold groupLootQuestItem
  split
  · exact Grown.refl g
  · split
    · exact Grown.refl g
    · exact grown_startRoll g fun m _ => fair_enterQuest v item m

theorem grown_needBeforeGreedItem (g : Group) (item : LootItem) :
    g.Grown (needBeforeGreedItem v g item) := by
  unfold needBeforeGreedItem
  split
  · exact Grown.refl g
  · split
    · exact Grown.refl g
    · split
      · exact grown_startRoll g fun m _ => fair_enterNeedBeforeGreed v item m
      · exact Grown.refl g

theorem grown_needBeforeGreedQuestItem (g : Group) (item : LootItem) :
    g.Grown (needBeforeGreedQuestItem v g item) := by
  unfold needBeforeGreedQuestItem
  split
  · exact Grown.refl g
  · exact grown_startRoll g fun m _ => fair_enterQuest v item m

theorem grown_groupLoot {v : Surroundings} {loot : Loot} (g : Group)
    (h : ∀ item ∈ loot.items, RolledItem v item →
      ∀ m ∈ v.members.guids, ¬ PassesBySettings v item m) : g.Grown (g.groupLoot v loot) := by
  have hitems := Grown.foldl (f := groupLootItem v) (l := loot.items)
    (fun g item hitem => grown_groupLootItem g (h item hitem)) g
  exact hitems.trans (Grown.foldl (fun g item _ => grown_groupLootQuestItem v g item) _)

theorem grown_needBeforeGreed (loot : Loot) (g : Group) : g.Grown (g.needBeforeGreed v loot) := by
  have hitems := Grown.foldl (f := needBeforeGreedItem v) (l := loot.items)
    (fun g item _ => grown_needBeforeGreedItem v g item) g
  exact hitems.trans (Grown.foldl (fun g item _ => grown_needBeforeGreedQuestItem v g item) _)

/-! ### Leaving -/

/-- A leave, in one roll. -/
def dropVoter (r : Roll) : Roll :=
  match r.playerVote.lookup player with
  | none => r
  | some vote => r.removeVoter player vote

theorem itemGUID_removeVoter (r : Roll) (player : ObjectGuid) (vote : RollVote) :
    (r.removeVoter player vote).itemGUID = r.itemGUID := by
  cases vote <;> rfl

theorem playerVote_removeVoter (r : Roll) (player : ObjectGuid) (vote : RollVote) :
    (r.removeVoter player vote).playerVote = r.playerVote.erase player := by
  cases vote <;> rfl

theorem itemGUID_dropVoter (r : Roll) : (dropVoter player r).itemGUID = r.itemGUID := by
  unfold dropVoter
  split
  · rfl
  · exact itemGUID_removeVoter r player _

theorem playerVote_dropVoter (r : Roll) :
    (dropVoter player r).playerVote =
      if player ∈ r.playerVote then r.playerVote.erase player else r.playerVote := by
  unfold dropVoter
  split
  · next hnone => rw [if_neg (AList.lookup_eq_none.mp hnone)]
  · next vote hvote =>
    have hmem : player ∈ r.playerVote := AList.lookup_isSome.mp (by rw [hvote]; rfl)
    rw [if_pos hmem]
    exact playerVote_removeVoter r player vote

/-- After a leave the player has no entry. -/
theorem lookup_dropVoter (r : Roll) : (dropVoter player r).playerVote.lookup player = none := by
  rw [playerVote_dropVoter]
  split
  · exact AList.lookup_erase player _
  · next hnot => exact AList.lookup_eq_none.mpr hnot

theorem dropVoter_dropVoter (r : Roll) :
    dropVoter player (dropVoter player r) = dropVoter player r := by
  show (match (dropVoter player r).playerVote.lookup player with
    | none => dropVoter player r
    | some vote => (dropVoter player r).removeVoter player vote) = _
  rw [lookup_dropVoter]

/-- A vote of someone without an entry is void. -/
theorem countRollVote_of_no_entry {player : ObjectGuid} {guid : Nat} {loot : LootRef}
    (h : ∀ r ∈ g.rolls, r.itemGUID = guid → r.playerVote.lookup player = none) :
    g.countRollVote player guid choice loot = g := by
  unfold countRollVote
  cases hfind : g.getRoll loot guid with
  | none => rfl
  | some r =>
    have hguid := List.find?_some hfind
    rw [Bool.and_eq_true, beq_iff_eq] at hguid
    simp only [h r (List.mem_of_find?_eq_some hfind) hguid.2]

/-- One round of the loop drops the voter from the roll, and the vote counted then is void. -/
theorem rolls_removeFromRoll (hd : g.Distinct) (player : ObjectGuid) (loot : Nat → LootRef)
    (guid : Nat) : (removeFromRoll player loot g guid).rolls =
      g.rolls.map fun r => if r.itemGUID = guid then dropVoter player r else r := by
  unfold removeFromRoll
  cases hfind : g.rolls.find? (·.itemGUID == guid) with
  | none =>
    symm
    apply (List.map_congr_left ?_).trans (List.map_id _)
    intro r hr
    have hne := List.find?_eq_none.mp hfind r hr
    rw [beq_iff_eq] at hne
    exact if_neg hne
  | some roll =>
    have hmem : roll ∈ g.rolls := List.mem_of_find?_eq_some hfind
    have hguid : roll.itemGUID = guid := by simpa using List.find?_some hfind
    -- the rolls are distinct, so only this one has the item
    have hone : ∀ r ∈ g.rolls, r.itemGUID = guid → r = roll :=
      fun r hr heq => hd.eq hr hmem (heq.trans hguid.symm)
    cases hvote : roll.playerVote.lookup player with
    | none =>
      have hsame : dropVoter player roll = roll := by simp only [dropVoter, hvote]
      simp only [hvote]
      symm
      apply (List.map_congr_left ?_).trans (List.map_id _)
      intro r hr
      show (if r.itemGUID = guid then dropVoter player r else r) = r
      split
      · next heq => rw [hone r hr heq, hsame]
      · rfl
    | some vote =>
      have hdrop : dropVoter player roll = roll.removeVoter player vote := by
        simp only [dropVoter, hvote]
      simp only [hvote]
      rw [countRollVote_of_no_entry, setRoll, itemGUID_removeVoter, hguid, ← hdrop]
      · apply List.map_congr_left
        intro r hr
        show (if r.itemGUID = guid then dropVoter player roll else r) = _
        split
        · next heq => rw [hone r hr heq]
        · rfl
      · intro r hr heq
        rcases (mem_setRoll _ r).mp hr with ⟨rfl, -⟩ | ⟨-, hne⟩
        · rw [← hdrop]
          exact lookup_dropVoter player roll
        · rw [itemGUID_removeVoter, hguid] at hne
          exact absurd heq hne

/-- A leave drops the voter from every pending roll, and resolves none. -/
theorem rolls_removeMember (hd : g.Distinct) (player : ObjectGuid) (loot : Nat → LootRef) :
    (g.removeMember player loot).rolls = g.rolls.map (dropVoter player) := by
  -- what the rounds for the items `l` have done
  have hloop : ∀ (l : List Nat) (g : Group), g.Distinct →
      (l.foldl (removeFromRoll player loot) g).rolls =
        g.rolls.map fun r => if r.itemGUID ∈ l then dropVoter player r else r := by
    intro l
    induction l with
    | nil =>
      intro g _
      simp
    | cons k l ih =>
      intro g hd
      have hround := rolls_removeFromRoll hd player loot k
      have hd' : (removeFromRoll player loot g k).Distinct := by
        apply distinct_of_map_eq ?_ hd hround
        intro r
        split
        · exact itemGUID_dropVoter player r
        · rfl
      rw [List.foldl_cons, ih _ hd', hround, List.map_map]
      apply List.map_congr_left
      intro r _
      simp only [Function.comp_apply]
      by_cases hk : r.itemGUID = k
      · rw [if_pos hk, itemGUID_dropVoter, dropVoter_dropVoter, ite_self, if_pos (by simp [hk])]
      · rw [if_neg hk]
        simp [hk]
  rw [removeMember, hloop _ g hd]
  apply List.map_congr_left
  intro r hr
  exact if_pos (List.mem_map_of_mem hr)

end Group

end TrinityCore.Groups
