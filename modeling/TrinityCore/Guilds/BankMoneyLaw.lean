import TrinityCore.Guilds.BankMoney
import TrinityCore.Lib.StateMachine

/-!
# What a guild bank keeps

Money is conserved and limited in every run. The check of the rank's right lets every member pass,
so withdrawals are authorised only where nobody without the right asks for one that the other
checks let pass.
-/

namespace TrinityCore.Guilds

open BankState Function List

open Entities StateMachine

variable {players : Finset Nat} {total : Nat} {s : BankState}

/-! ### What the checks say -/

/-- The right to withdraw has no bit in common with the mark of a right. -/
theorem and_ne_empty {right : UInt32} (h : right &&& GR_RIGHT_EMPTY = 0) (rights : UInt32) :
    rights &&& right ≠ GR_RIGHT_EMPTY := by
  intro heq
  have hand := congrArg (· &&& GR_RIGHT_EMPTY) heq
  simp only [UInt32.and_assoc, h, UInt32.and_zero, UInt32.and_self] at hand
  exact absurd hand (by decide)

variable {player amount : Nat} {member : Member} {request : BankRequest}

/-- Every member passes the check of a right to withdraw. -/
theorem hasRankRight_withdraw {g : Guild} (h : g.getMember player = some member) (repair : Bool) :
    g.hasRankRight player (if repair then GR_RIGHT_WITHDRAW_REPAIR else GR_RIGHT_WITHDRAW_GOLD) =
      true := by
  unfold Guild.hasRankRight
  rw [h]
  apply decide_eq_true
  apply and_ne_empty
  cases repair <;> decide

theorem dailyLimit_lt (g : Guild) (rankId : Nat) : g.dailyLimit rankId < 2 ^ 46 := by
  have hlt := (g.getRankBankMoneyPerDay rankId).toNat_lt
  unfold Guild.dailyLimit GOLD
  omega

/-- What a member may still withdraw together with what he has withdrawn is within his limit. -/
theorem add_le_dailyLimit {g : Guild} (hrank : member.rankId ≠ GR_GUILDMASTER)
    (hcount : member.bankWithdrawMoney < 2 ^ 63) (hpos : 0 < amount)
    (hle : (amount : Int) ≤ g.getMemberRemainingMoney member) :
    member.bankWithdrawMoney + amount ≤ g.dailyLimit member.rankId := by
  have hlimit := dailyLimit_lt g member.rankId
  unfold Guild.getMemberRemainingMoney at hle
  rw [if_neg hrank] at hle
  split at hle
  · rw [Int.bmod_eq_of_le (by omega) (by omega)] at hle
    dsimp only at hle
    split at hle
    · omega
    · omega
  · omega

/-! ### What a deposit and a withdrawal do -/

/-- The bank after a deposit. -/
def BankState.receive (s : BankState) (player amount : Nat) (cashFlow : Bool) : BankState :=
  { s with
    bankMoney := s.bankMoney + amount
    weeklyBonusMoney :=
      if cashFlow then (s.weeklyBonusMoney + amount) % 2 ^ 64 else s.weeklyBonusMoney
    money :=
      if cashFlow then s.money else update s.money player (s.money player - amount)
    cashFlow := if cashFlow then s.cashFlow + amount else s.cashFlow }

/-- A deposit that keeps the bank within its limit is taken, any other changes nothing. -/
theorem deposit_spec {cashFlow : Bool} (hlt : amount < 2 ^ 34)
    (hamount : cashFlow ∨ amount ≤ s.money player) :
    s.handleMemberDepositMoney player amount cashFlow =
      if GUILD_BANK_MONEY_LIMIT < s.bankMoney + amount then (false, s)
      else (true, s.receive player amount cashFlow) := by
  have hcast : toInt64 amount = amount := toInt64_of_lt (by omega)
  have hroom : (GUILD_BANK_MONEY_LIMIT + 2 ^ 64 - amount) % 2 ^ 64 < s.bankMoney ↔
      GUILD_BANK_MONEY_LIMIT < s.bankMoney + amount := by
    unfold GUILD_BANK_MONEY_LIMIT
    omega
  unfold handleMemberDepositMoney
  simp only [hroom, hcast]
  split
  · rfl
  · next hfits =>
    have hwrap : (s.bankMoney + amount) % 2 ^ 64 = s.bankMoney + amount := by
      unfold GUILD_BANK_MONEY_LIMIT at hfits
      omega
    unfold modifyBankMoney receive
    simp only [if_true, hwrap]
    cases cashFlow with
    | true => rfl
    | false =>
      have hle : amount ≤ s.money player := hamount.resolve_left nofun
      simp only [Bool.false_eq_true, if_false, modifyMoney_neg hle]

/-- The bank after it has paid. -/
def BankState.pay (s : BankState) (player amount : Nat) (repair : Bool) (member : Member) :
    BankState :=
  { s with
    bankMoney := s.bankMoney - amount
    money :=
      if repair then s.money else update s.money player (s.money player + amount)
    guild := s.guild.modifyMember player fun member =>
      { member with bankWithdrawMoney := (member.bankWithdrawMoney + amount) % 2 ^ 64 }
    withdrawals := s.withdrawals ++ [{ guid := player, amount, repair
                                       rights := s.guild.getRankRights member.rankId
                                       limit := s.guild.dailyLimit member.rankId }]
    repairs := if repair then s.repairs + amount else s.repairs }

/-- A withdrawal that is granted is paid, any other changes nothing. -/
theorem withdraw_spec (hpurse : s.money player ≤ MAX_MONEY_AMOUNT) (amount : Nat) (repair : Bool) :
    (∃ member, s.Grants player (min amount MAX_MONEY_AMOUNT) repair member ∧
      s.handleMemberWithdrawMoney player amount repair =
        (true, s.pay player (min amount MAX_MONEY_AMOUNT) repair member)) ∨
    ((∀ member, ¬s.Grants player (min amount MAX_MONEY_AMOUNT) repair member) ∧
      s.handleMemberWithdrawMoney player amount repair = (false, s)) := by
  have hmost : min amount MAX_MONEY_AMOUNT ≤ MAX_MONEY_AMOUNT := Nat.min_le_right _ _
  unfold handleMemberWithdrawMoney BankState.Grants
  generalize min amount MAX_MONEY_AMOUNT = amount at hmost ⊢
  have hcast : toInt64 amount = amount := toInt64_of_lt (Nat.lt_of_le_of_lt hmost (by decide))
  dsimp only
  split
  · next hbank => exact .inr ⟨fun _ hgrants => absurd hgrants.2.1 (by omega), rfl⟩
  · next hbank =>
    cases hget : s.guild.getMember player with
    | none => exact .inr ⟨fun _ hgrants => (nomatch hgrants.1), rfl⟩
    | some member =>
      dsimp only
      rw [hasRankRight_withdraw hget, if_neg (by decide), hcast]
      split
      · next hremaining =>
        refine .inr ⟨?_, rfl⟩
        rintro _ ⟨heq, -, hle, -⟩
        cases heq
        omega
      · next hremaining =>
        rw [modifyMoney_pos hmost hpurse]
        cases repair with
        | true =>
          refine .inl ⟨member, ⟨rfl, by omega, by omega, .inl rfl⟩, ?_⟩
          unfold modifyBankMoney pay
          simp [hbank]
        | false =>
          by_cases hcap : s.money player + amount ≤ MAX_MONEY_AMOUNT
          · refine .inl ⟨member, ⟨rfl, by omega, by omega, .inr hcap⟩, ?_⟩
            unfold modifyBankMoney pay
            simp [hbank, hcap]
          · refine .inr ⟨?_, ?_⟩
            · rintro _ ⟨-, -, -, hrepair | hle⟩
              · exact absurd hrepair (by decide)
              · exact hcap hle
            · simp [hcap]

/-! ### What every step keeps -/

/-- A lawful bank whose players are within their limit and whose members' counters are what they
have withdrawn. -/
structure BankIndex (players : Finset Nat) (total : Nat) (s : BankState) : Prop
    extends s.Lawful players total where
  purses : ∀ player ∈ players, s.money player ≤ MAX_MONEY_AMOUNT
  limits : ∀ w ∈ s.withdrawals, w.limit < 2 ^ 46
  counted : s.reset → ∀ guid member, s.guild.getMember guid = some member →
    member.rankId ≠ GR_GUILDMASTER → member.bankWithdrawMoney = s.withdrawn guid

theorem BankState.Opens.index (h : s.Opens players) :
    BankIndex players (s.bankMoney + totalMoney players s.money) s where
  conserved := by rw [h.cashFlow, h.repairs]
  limited := h.limited
  daily _ guid _ _ _ hsome := by
    rw [h.withdrawals] at hsome
    exact absurd rfl hsome
  authorised w hmem := by
    rw [h.withdrawals] at hmem
    contradiction
  purses := h.purses
  limits w hmem := by
    rw [h.withdrawals] at hmem
    contradiction
  counted hreset guid member hget _ := by
    rw [h.counters hreset member (Guild.getMember_mem hget)]
    unfold withdrawn
    rw [h.withdrawals]
    rfl

/-- What has been withdrawn in all is within the limit of one withdrawal. -/
theorem BankIndex.withdrawn_lt (h : BankIndex players total s) (hreset : s.reset) {guid : Nat}
    (hget : s.guild.getMember guid = some member) (hrank : member.rankId ≠ GR_GUILDMASTER) :
    s.withdrawn guid < 2 ^ 46 := by
  by_cases hsome : s.withdrawals.filter (·.guid = guid) = []
  · unfold withdrawn
    rw [hsome]
    decide
  · obtain ⟨w, hmem, -, hle⟩ := h.daily hreset guid member hget hrank hsome
    have hlimit := h.limits w hmem
    omega

theorem BankIndex.deposit (h : BankIndex players total s) {cashFlow : Bool}
    (hcalled : (BankRequest.deposit player amount cashFlow).Called players s) :
    BankIndex players total (s.step (.deposit player amount cashFlow)) := by
  obtain ⟨hmem, hamount⟩ := hcalled
  have hpurse := h.purses player hmem
  have hconserved := h.conserved
  have hlt : amount < 2 ^ 34 := by
    unfold MAX_MONEY_AMOUNT at hpurse
    omega
  have howned : cashFlow ∨ amount ≤ s.money player := by
    rcases hamount with hle | ⟨hflow, -⟩
    · exact .inr hle
    · exact .inl hflow
  unfold step handle
  dsimp only
  rw [deposit_spec hlt howned]
  split
  · exact h
  · next hroom =>
    unfold receive
    cases cashFlow with
    | true =>
      refine { h with conserved := ?_, limited := ?_ }
      · simp only [if_true]
        omega
      · exact Nat.le_of_not_lt hroom
    | false =>
      have hle : amount ≤ s.money player := howned.resolve_left nofun
      have htotal := totalMoney_update hmem s.money (s.money player - amount)
      refine { h with conserved := ?_, limited := ?_, purses := ?_ }
      · simp only [Bool.false_eq_true, if_false]
        omega
      · exact Nat.le_of_not_lt hroom
      · intro other hother
        have hcap := h.purses other hother
        simp only [Bool.false_eq_true, if_false, update_apply]
        split
        · omega
        · exact hcap

/-- What a member has withdrawn, after one more withdrawal. -/
theorem withdrawn_append (s : BankState) (w : Withdrawal) (guid : Nat) :
    withdrawn { s with withdrawals := s.withdrawals ++ [w] } guid =
      s.withdrawn guid + if w.guid = guid then w.amount else 0 := by
  unfold withdrawn
  rw [filter_append, map_append, sum_append]
  split
  · next hguid => simp [hguid]
  · next hguid => simp [hguid]

theorem BankIndex.pay (h : BankIndex players total s) {repair : Bool} (hmem : player ∈ players)
    (hgrants : s.Grants player amount repair member)
    (hauthorised : s.guild.getRankRights member.rankId &&&
      (if repair then GR_RIGHT_WITHDRAW_REPAIR else GR_RIGHT_WITHDRAW_GOLD) ≠ 0) :
    BankIndex players total (s.pay player amount repair member) := by
  obtain ⟨hget, hbank, hremaining, hcap⟩ := hgrants
  have hconserved := h.conserved
  have hlimited := h.limited
  have hpaid : ∀ guid, (s.pay player amount repair member).withdrawn guid =
      s.withdrawn guid + if player = guid then amount else 0 := withdrawn_append s _
  have hlookup : ∀ guid, (s.pay player amount repair member).guild.getMember guid =
      if guid = player then (s.guild.getMember guid).map fun member =>
        { member with bankWithdrawMoney := (member.bankWithdrawMoney + amount) % 2 ^ 64 }
      else s.guild.getMember guid := Guild.getMember_modifyMember fun _ => rfl
  -- a member who withdraws more than nothing stays within the limit that he has now
  have hnew : s.reset → member.rankId ≠ GR_GUILDMASTER →
      member.bankWithdrawMoney = s.withdrawn player ∧ s.withdrawn player < 2 ^ 46 ∧
        (0 < amount → s.withdrawn player + amount ≤ s.guild.dailyLimit member.rankId) := by
    intro hreset hrank
    have hcount := h.counted hreset player member hget hrank
    have hlt := h.withdrawn_lt hreset hget hrank
    refine ⟨hcount, hlt, fun hpos => ?_⟩
    have hle := add_le_dailyLimit hrank (by omega) hpos hremaining
    omega
  constructor
  · constructor
    · unfold BankState.pay
      dsimp only
      cases repair with
      | true =>
        simp only [if_true]
        omega
      | false =>
        have htotal := totalMoney_update hmem s.money (s.money player + amount)
        simp only [Bool.false_eq_true, if_false]
        omega
    · unfold BankState.pay
      dsimp only
      omega
    · intro hreset guid other hother hrank hwithdrew
      rw [hlookup] at hother
      rw [hpaid]
      split at hother
      · next hguid =>
        subst hguid
        rw [hget] at hother
        cases hother
        rw [if_pos rfl]
        obtain ⟨-, -, hle⟩ := hnew hreset hrank
        by_cases hsome : amount = 0 ∧ s.withdrawals.filter (·.guid = guid) ≠ []
        · obtain ⟨w, hin, hguid, hlimit⟩ := h.daily hreset guid member hget hrank hsome.2
          exact ⟨w, mem_append_left _ hin, hguid, by omega⟩
        · refine ⟨_, mem_append_right _ (mem_singleton_self _), rfl, ?_⟩
          dsimp only
          by_cases hzero : amount = 0
          · have hnone : s.withdrawals.filter (·.guid = guid) = [] := by
              by_contra hne
              exact hsome ⟨hzero, hne⟩
            unfold withdrawn
            rw [hnone]
            simp [hzero]
          · exact hle (by omega)
      · next hguid =>
        have hne : player ≠ guid := fun heq => hguid heq.symm
        rw [if_neg hne]
        have hsame : (s.pay player amount repair member).withdrawals.filter (·.guid = guid) =
            s.withdrawals.filter (·.guid = guid) := by
          unfold BankState.pay
          simp [filter_append, hne]
        rw [hsame] at hwithdrew
        obtain ⟨w, hin, hguid, hlimit⟩ := h.daily hreset guid other hother hrank hwithdrew
        exact ⟨w, mem_append_left _ hin, hguid, hlimit⟩
    · intro w hin
      rcases mem_append.mp hin with hold | hlast
      · exact h.authorised w hold
      · rw [mem_singleton.mp hlast]
        exact hauthorised
  · intro other hother
    have hpurse := h.purses other hother
    have howner := h.purses player hmem
    unfold BankState.pay
    cases repair with
    | true => exact hpurse
    | false =>
      have hfits := hcap.resolve_left nofun
      simp only [Bool.false_eq_true, if_false, update_apply]
      split
      · exact hfits
      · exact hpurse
  · intro w hin
    rcases mem_append.mp hin with hold | hlast
    · exact h.limits w hold
    · rw [mem_singleton.mp hlast]
      exact dailyLimit_lt _ _
  · intro hreset guid other hother hrank
    rw [hlookup] at hother
    rw [hpaid]
    split at hother
    · next hguid =>
      subst hguid
      rw [hget] at hother
      cases hother
      obtain ⟨hcount, hlt, hle⟩ := hnew hreset hrank
      have hlimit := dailyLimit_lt s.guild member.rankId
      dsimp only
      rw [hcount, if_pos rfl]
      by_cases hzero : amount = 0
      · omega
      · have := hle (by omega)
        omega
    · next hguid =>
      rw [if_neg fun heq => hguid heq.symm]
      exact h.counted hreset guid other hother hrank

theorem BankIndex.setRankInfo (h : BankIndex players total s) {rankId : Nat} {name : String}
    {rights moneyPerDay : UInt32} {rightsAndSlots : List GuildBankRightsAndSlots} :
    BankIndex players total
      (s.step (.setRankInfo player rankId name rights moneyPerDay rightsAndSlots)) := by
  have hmembers : ∀ guid, (s.guild.handleSetRankInfo s.tabs player rankId name rights moneyPerDay
      rightsAndSlots).getMember guid = s.guild.getMember guid := by
    intro guid
    unfold Guild.handleSetRankInfo
    split <;> rfl
  refine { h with daily := ?_, counted := ?_ }
  · intro hreset guid member hget
    exact h.daily hreset guid member ((hmembers guid).symm.trans hget)
  · intro hreset guid member hget
    exact h.counted hreset guid member ((hmembers guid).symm.trans hget)

theorem BankIndex.resetTimes (h : BankIndex players total s) {weekly : Bool} :
    BankIndex players total (s.step (.resetTimes weekly)) := by
  refine { h with daily := ?_, authorised := nofun, limits := nofun, counted := ?_ }
  · intro _ guid _ _ _ hsome
    exact absurd rfl hsome
  · intro _ guid member hget _
    obtain ⟨before, -, rfl⟩ := mem_map.mp (Guild.getMember_mem hget)
    rfl

theorem step_withdraw (player amount : Nat) (repair : Bool) :
    s.step (.withdraw player amount repair) = (s.handleMemberWithdrawMoney player amount repair).2 :=
  rfl

theorem BankIndex.step (h : BankIndex players total s) (hcalled : request.Called players s)
    (hauthorised : request.Authorised s) : BankIndex players total (s.step request) := by
  cases request with
  | deposit player amount cashFlow => exact h.deposit hcalled
  | withdraw player amount repair =>
    rw [step_withdraw]
    rcases withdraw_spec (h.purses player hcalled) amount repair with
      ⟨member, hgrants, heq⟩ | ⟨-, heq⟩
    · rw [heq]
      exact h.pay hcalled hgrants (hauthorised member hgrants)
    · rw [heq]
      exact h
  | setRankInfo player rankId name rights moneyPerDay rightsAndSlots => exact h.setRankInfo
  | resetTimes weekly => exact h.resetTimes

/-- A withdrawal that is granted without the right for it is one that is not authorised. -/
theorem BankIndex.not_lawful (h : BankIndex players total s) (hcalled : request.Called players s)
    (hnot : ¬request.Authorised s) : ¬(s.step request).Lawful players total := by
  intro hlawful
  apply hnot
  cases request with
  | withdraw player amount repair =>
    intro member hgrants
    rw [step_withdraw] at hlawful
    rcases withdraw_spec (h.purses player hcalled) amount repair with
      ⟨other, hother, heq⟩ | ⟨hnone, -⟩
    · have hsame : other = member := Option.some.inj (hother.1.symm.trans hgrants.1)
      subst hsame
      rw [heq] at hlawful
      exact hlawful.authorised _ (mem_append_right _ (mem_singleton_self _))
    · exact absurd hgrants (hnone member)
  | deposit player amount cashFlow => trivial
  | setRankInfo player rankId name rights moneyPerDay rightsAndSlots => trivial
  | resetTimes weekly => trivial

/-- A call that fails changes nothing. -/
theorem BankIndex.step_of_failed (h : BankIndex players total s)
    (hcalled : request.Called players s) (hfailed : (s.handle request).1 = false) :
    s.step request = s := by
  cases request with
  | deposit player amount cashFlow =>
    unfold BankState.step BankState.handle BankState.handleMemberDepositMoney at *
    dsimp only at *
    split
    · rfl
    · next hroom =>
      rw [if_neg hroom] at hfailed
      cases cashFlow <;> contradiction
  | withdraw player amount repair =>
    rw [step_withdraw]
    rcases withdraw_spec (h.purses player hcalled) amount repair with ⟨_, -, heq⟩ | ⟨-, heq⟩
    · have hpaid := congrArg Prod.fst heq
      exact absurd (hfailed.symm.trans hpaid) Bool.false_ne_true
    · rw [heq]
  | setRankInfo player rankId name rights moneyPerDay rightsAndSlots =>
    have hsame : s.guild.handleSetRankInfo s.tabs player rankId name rights moneyPerDay
        rightsAndSlots = s.guild := by
      unfold Guild.handleSetRankInfo
      exact if_neg (Bool.eq_false_iff.mp hfailed)
    exact congrArg (fun guild => { s with guild }) hsame
  | resetTimes weekly => contradiction

/-- All states of a run are lawful, and no failed call changes anything, exactly when all
withdrawals that nothing else stands against are authorised. -/
theorem lawful_iff_authorised (hopens : s.Opens players) {requests : List BankRequest}
    (hcalled : Admits BankState.step (fun s request => request.Called players s) s requests) :
    ((∀ before, before <+: requests → (run BankState.step s before).Lawful players
        (s.bankMoney + totalMoney players s.money)) ∧
      ∀ before request, before ++ [request] <+: requests →
        ((run BankState.step s before).handle request).1 = false →
          run BankState.step s (before ++ [request]) = run BankState.step s before) ↔
      Admits BankState.step (fun s request => request.Authorised s) s requests := by
  have hiff := run_prefixes_iff_of_invariant hopens.index (fun _ h => h.toLawful)
    (fun _ _ h => h.step) (fun _ _ h => h.not_lawful) hcalled
  constructor
  · rintro ⟨hall, -⟩
    exact hiff.mp hall
  · intro hauthorised
    refine ⟨hiff.mpr hauthorised, ?_⟩
    rintro before request ⟨rest, rfl⟩ hfailed
    rw [append_assoc] at hcalled hauthorised
    obtain ⟨hbefore, hnow, -⟩ := (admits_append _ _).mp hcalled
    have hindex := run_invariant_of_admits hopens.index
      (fun _ _ ht hok => BankIndex.step ht hok.1 hok.2) before
      (hbefore.and ((admits_append _ _).mp hauthorised).1)
    rw [run_concat]
    exact hindex.step_of_failed hnow hfailed

/-- A bank with 1000 copper, and a member of a rank with the right to repair only. -/
def repairBank : BankState where
  guild :=
    { id := 1
      ranks := [⟨0, "Guild Master", GR_RIGHT_ALL, 0, []⟩,
        ⟨1, "Smith", GR_RIGHT_EMPTY ||| GR_RIGHT_WITHDRAW_REPAIR, 1, []⟩]
      members := [{ guid := 10, name := "Anna", rankId := 0 },
        { guid := 11, name := "Bert", rankId := 1 }]
      leaderGuid := 10
      guildIds := fun _ => 1 }
  tabs := 0
  bankMoney := 1000
  weeklyBonusMoney := 0
  money := fun _ => 0
  reset := true
  withdrawals := []
  cashFlow := 0
  repairs := 0

theorem opens_repairBank : repairBank.Opens {11} :=
  ⟨by decide, fun _ _ => Nat.zero_le _, rfl, fun _ => by decide, rfl, rfl⟩

theorem called_repairBank (repair : Bool) :
    Admits step (fun s request => request.Called {11} s) repairBank
      [.withdraw 11 100 repair] :=
  ⟨Finset.mem_singleton_self _, trivial⟩

theorem lawful_iff_authorised_repair :
    ((∀ before, before <+: [BankRequest.withdraw 11 100 true] →
        (run BankState.step repairBank before).Lawful {11}
          (repairBank.bankMoney + totalMoney {11} repairBank.money)) ∧
      ∀ before request, before ++ [request] <+: [BankRequest.withdraw 11 100 true] →
        ((run BankState.step repairBank before).handle request).1 = false →
          run BankState.step repairBank (before ++ [request]) =
            run BankState.step repairBank before) ↔
      Admits BankState.step (fun s request => request.Authorised s) repairBank
        [.withdraw 11 100 true] :=
  lawful_iff_authorised opens_repairBank (called_repairBank true)

theorem lawful_fails_repair :
    ¬∀ (players : Finset Nat) (s : BankState) (requests : List BankRequest), s.Opens players →
      Admits BankState.step (fun s request => request.Called players s) s requests →
      ∀ before, before <+: requests → (run BankState.step s before).Lawful players
        (s.bankMoney + totalMoney players s.money) := by
  intro hall
  have hlawful := hall {11} repairBank _ opens_repairBank (called_repairBank false) _
    (prefix_refl _)
  apply opens_repairBank.index.not_lawful (called_repairBank false).1 _ hlawful
  intro hauthorised
  have hgold := hauthorised { guid := 11, name := "Bert", rankId := 1 }
    ⟨rfl, by decide, by decide, Or.inr (by decide)⟩
  exact hgold (by decide)

end TrinityCore.Guilds
