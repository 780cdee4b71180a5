import Mathlib.Algebra.Ring.Nat
import TrinityCore.Entities.PlayerMoney
import TrinityCore.Guilds.Guild

/-!
# Guild bank money

Deposits and withdrawals of guild members, the daily limits of their ranks and the reset of what
they have withdrawn, as `Guild.cpp` does it.
-/

namespace TrinityCore.Guilds

open Entities

def GOLD : Nat := 10000
def GUILD_BANK_MONEY_LIMIT : Nat := 0x7FFFFFFFFFFFF
def GUILD_WITHDRAW_MONEY_UNLIMITED : UInt32 := 0xFFFFFFFF
def GUILD_WITHDRAW_SLOT_UNLIMITED : UInt32 := 0xFFFFFFFF
def GUILD_BANK_RIGHT_FULL : UInt8 := 0xFF

namespace RankInfo

/-- `SetRights`: the leader's rank keeps all rights. -/
def setRights (info : RankInfo) (rights : UInt32) : RankInfo :=
  { info with rights := if info.rankId = GR_GUILDMASTER then GR_RIGHT_ALL else rights }

/-- `GetBankMoneyPerDay`. -/
def getBankMoneyPerDay (info : RankInfo) : UInt32 :=
  if info.rankId ≠ GR_GUILDMASTER then info.bankMoneyPerDay else GUILD_WITHDRAW_MONEY_UNLIMITED

/-- `SetBankTabSlotsAndRights`. -/
def setBankTabSlotsAndRights (info : RankInfo) (rightsAndSlots : GuildBankRightsAndSlots) :
    RankInfo :=
  let rightsAndSlots : GuildBankRightsAndSlots :=
    if info.rankId = GR_GUILDMASTER then
      { rightsAndSlots with
        rights := GUILD_BANK_RIGHT_FULL
        slots := GUILD_WITHDRAW_SLOT_UNLIMITED }
    else rightsAndSlots
  { info with
    bankTabRightsAndSlots :=
      info.bankTabRightsAndSlots.set rightsAndSlots.tabId.toNat rightsAndSlots }

end RankInfo

namespace Guild

/-- `_GetRankBankMoneyPerDay`. -/
def getRankBankMoneyPerDay (g : Guild) (rankId : Nat) : UInt32 :=
  ((g.getRankInfo rankId).map RankInfo.getBankMoneyPerDay).getD 0

/-- The copper that a rank may withdraw a day. -/
def dailyLimit (g : Guild) (rankId : Nat) : Nat := (g.getRankBankMoneyPerDay rankId).toNat * GOLD

/-- `_GetMemberRemainingMoney`. The subtraction is one of `uint64`. -/
def getMemberRemainingMoney (g : Guild) (member : Member) : Int :=
  if member.rankId = GR_GUILDMASTER then 2 ^ 63 - 1
  else if g.getRankRights member.rankId &&& (GR_RIGHT_WITHDRAW_REPAIR ||| GR_RIGHT_WITHDRAW_GOLD) ≠ 0 then
    let remaining := Int.bmod (g.dailyLimit member.rankId - member.bankWithdrawMoney) (2 ^ 64)
    if 0 < remaining then remaining else 0
  else 0

/-- `HandleSetRankInfo`, for a bank with so many tabs. -/
def handleSetRankInfo (g : Guild) (tabs : Nat) (player rankId : Nat) (name : String)
    (rights moneyPerDay : UInt32) (rightsAndSlots : List GuildBankRightsAndSlots) : Guild :=
  if g.isLeader player && (g.getRankInfo rankId).isSome then
    let setInfo (info : RankInfo) : RankInfo :=
      (rightsAndSlots.filter fun entry => entry.tabId.toNat < tabs).foldl
        RankInfo.setBankTabSlotsAndRights
        { info.setRights rights with
          name
          bankMoneyPerDay := moneyPerDay }
    { g with ranks := g.ranks.modify rankId setInfo }
  else g

/-- What `ResetTimes` resets of the members. -/
def resetTimes (g : Guild) : Guild :=
  { g with members := g.members.map fun member =>
      { member with
        bankWithdraw := List.replicate GUILD_BANK_MAX_TABS 0
        bankWithdrawMoney := 0 } }

end Guild

/-- A withdrawal, with the rights and the daily limit that the rank had then. -/
structure Withdrawal where
  guid : Nat
  amount : Nat
  repair : Bool
  rights : UInt32
  limit : Nat

/-- The bank of a guild and the money of all players, with the withdrawals since the last reset,
if there has been one, and the money that came from and went to neither. -/
structure BankState where
  guild : Guild
  tabs : Nat
  bankMoney : Nat
  weeklyBonusMoney : Nat
  money : Nat → Nat
  reset : Bool
  withdrawals : List Withdrawal
  cashFlow : Nat
  repairs : Nat

namespace BankState

/-- `_ModifyBankMoney`. -/
def modifyBankMoney (s : BankState) (amount : Nat) (add fromCashFlow : Bool) : Bool × BankState :=
  if add then
    (true, { s with
      bankMoney := (s.bankMoney + amount) % 2 ^ 64
      weeklyBonusMoney :=
        if fromCashFlow then (s.weeklyBonusMoney + amount) % 2 ^ 64 else s.weeklyBonusMoney })
  else if s.bankMoney < amount then (false, s)
  else (true, { s with bankMoney := s.bankMoney - amount })

/-- `HandleMemberDepositMoney`, and whether the bank took it. -/
def handleMemberDepositMoney (s : BankState) (player amount : Nat) (cashFlow : Bool) :
    Bool × BankState :=
  if (GUILD_BANK_MONEY_LIMIT + 2 ^ 64 - amount) % 2 ^ 64 < s.bankMoney then (false, s)
  else
    let s := (s.modifyBankMoney amount true cashFlow).2
    if cashFlow then (true, { s with cashFlow := s.cashFlow + amount })
    else
      let money := (modifyMoney (s.money player) (-toInt64 amount)).2
      (true, { s with money := Function.update s.money player money })

/-- `HandleMemberWithdrawMoney`. -/
def handleMemberWithdrawMoney (s : BankState) (player amount : Nat) (repair : Bool) :
    Bool × BankState :=
  let amount := min amount MAX_MONEY_AMOUNT
  if s.bankMoney < amount then (false, s)
  else
    match s.guild.getMember player with
    | none => (false, s)
    | some member =>
      let right := if repair then GR_RIGHT_WITHDRAW_REPAIR else GR_RIGHT_WITHDRAW_GOLD
      if !s.guild.hasRankRight player right then (false, s)
      else if s.guild.getMemberRemainingMoney member < toInt64 amount then (false, s)
      else
        let (paid, money) :=
          if repair then (true, s.money player) else modifyMoney (s.money player) (toInt64 amount)
        if !paid then (false, s)
        else
          let withdrawal : Withdrawal :=
            { guid := player, amount, repair
              rights := s.guild.getRankRights member.rankId
              limit := s.guild.dailyLimit member.rankId }
          let s := { s with
            money := Function.update s.money player money
            guild := s.guild.modifyMember player fun member =>
              { member with
                bankWithdrawMoney := (member.bankWithdrawMoney + amount) % 2 ^ 64 }
            withdrawals := s.withdrawals ++ [withdrawal]
            repairs := if repair then s.repairs + amount else s.repairs }
          (true, (s.modifyBankMoney amount false false).2)

end BankState

/-- What is asked of a guild bank. -/
inductive BankRequest where
  | deposit (player amount : Nat) (cashFlow : Bool)
  | withdraw (player amount : Nat) (repair : Bool)
  | setRankInfo (player rankId : Nat) (name : String) (rights moneyPerDay : UInt32)
    (rightsAndSlots : List GuildBankRightsAndSlots)
  | resetTimes (weekly : Bool)

/-- One request, and whether it succeeds. -/
def BankState.handle (s : BankState) : BankRequest → Bool × BankState
  | .deposit player amount cashFlow => s.handleMemberDepositMoney player amount cashFlow
  | .withdraw player amount repair => s.handleMemberWithdrawMoney player amount repair
  | .setRankInfo player rankId name rights moneyPerDay rightsAndSlots =>
    (s.guild.isLeader player && (s.guild.getRankInfo rankId).isSome, { s with
      guild := s.guild.handleSetRankInfo s.tabs player rankId name rights moneyPerDay rightsAndSlots })
  | .resetTimes weekly =>
    (true, { s with
      guild := s.guild.resetTimes
      weeklyBonusMoney := if weekly then 0 else s.weeklyBonusMoney
      reset := true
      withdrawals := [] })

def BankState.step (s : BankState) (request : BankRequest) : BankState := (s.handle request).2

/-- What a member has withdrawn since the last reset. -/
def BankState.withdrawn (s : BankState) (guid : Nat) : Nat :=
  ((s.withdrawals.filter (·.guid = guid)).map Withdrawal.amount).sum

/-- The withdrawal was of a kind that the rank had the right for. -/
def Withdrawal.Authorised (w : Withdrawal) : Prop :=
  w.rights &&& (if w.repair then GR_RIGHT_WITHDRAW_REPAIR else GR_RIGHT_WITHDRAW_GOLD) ≠ 0

/-- What a guild bank is to keep: no money is made or lost, the bank stays within its limit, every
member stays within the greatest daily limit of his withdrawals, and all withdrawals are
authorised. -/
structure BankState.Lawful (players : Finset Nat) (total : Nat) (s : BankState) : Prop where
  conserved : s.bankMoney + totalMoney players s.money + s.repairs = total + s.cashFlow
  limited : s.bankMoney ≤ GUILD_BANK_MONEY_LIMIT
  daily : s.reset → ∀ guid member, s.guild.getMember guid = some member →
    member.rankId ≠ GR_GUILDMASTER → s.withdrawals.filter (·.guid = guid) ≠ [] →
      ∃ w ∈ s.withdrawals, w.guid = guid ∧ s.withdrawn guid ≤ w.limit
  authorised : ∀ w ∈ s.withdrawals, w.Authorised

/-- What a player asks the bank for is there, within what he may still withdraw today, and does not
make his money more than he can have. -/
def BankState.Grants (s : BankState) (player amount : Nat) (repair : Bool) (member : Member) :
    Prop :=
  s.guild.getMember player = some member ∧ amount ≤ s.bankMoney ∧
    (amount : Int) ≤ s.guild.getMemberRemainingMoney member ∧
    (repair ∨ s.money player + amount ≤ MAX_MONEY_AMOUNT)

/-- Players deposit money that they have. What flows in without being theirs is a `uint32`. -/
def BankRequest.Called (players : Finset Nat) (s : BankState) : BankRequest → Prop
  | .deposit player amount cashFlow =>
    player ∈ players ∧ (amount ≤ s.money player ∨ cashFlow ∧ amount < 2 ^ 32)
  | .withdraw player _ _ => player ∈ players
  | _ => True

/-- Where nothing else stands against a withdrawal, the rank has the right for it. -/
def BankRequest.Authorised (s : BankState) : BankRequest → Prop
  | .withdraw player amount repair =>
    ∀ member, s.Grants player (min amount MAX_MONEY_AMOUNT) repair member →
      s.guild.getRankRights member.rankId &&&
        (if repair then GR_RIGHT_WITHDRAW_REPAIR else GR_RIGHT_WITHDRAW_GOLD) ≠ 0
  | _ => True

/-- A bank within its limit, with players within theirs, at the start of what is recorded. -/
structure BankState.Opens (players : Finset Nat) (s : BankState) : Prop where
  limited : s.bankMoney ≤ GUILD_BANK_MONEY_LIMIT
  purses : ∀ player ∈ players, s.money player ≤ MAX_MONEY_AMOUNT
  withdrawals : s.withdrawals = []
  counters : s.reset → ∀ member ∈ s.guild.members, member.bankWithdrawMoney = 0
  cashFlow : s.cashFlow = 0
  repairs : s.repairs = 0

end TrinityCore.Guilds
