import TrinityCore.Guilds.BankMoney

/-!
# Guild bank items

How the items of a guild bank are moved between its slots: what may be moved, where room for it is
reserved, and what is stored there, as `Guild.cpp` does it.
-/

namespace TrinityCore.Guilds

def GUILD_BANK_MAX_SLOTS : Nat := 98
def GUILD_BANK_RIGHT_VIEW_TAB : UInt8 := 0x01
def GUILD_BANK_RIGHT_PUT_ITEM : UInt8 := 0x02
def GUILD_BANK_RIGHT_DEPOSIT_ITEM : UInt8 := GUILD_BANK_RIGHT_VIEW_TAB ||| GUILD_BANK_RIGHT_PUT_ITEM

/-- An item object, which its guid tells from all others. -/
structure BankItem where
  guid : Nat
  entry : Nat
  count : Nat
  soulBound : Bool
  deriving DecidableEq, Repr

/-- `ItemPosCount`: a slot of a tab and how many items go there. -/
structure ItemPosCount where
  pos : Nat
  count : Nat
  deriving DecidableEq, Repr

/-- An item that a player moved from one tab to another one, or to a slot of the same. -/
structure ItemMove where
  player : Nat
  source : Nat
  target : Nat
  deriving DecidableEq, Repr

/-- The bank of a guild: so many tabs, and the item of every slot of every tab. The moves are
history that nothing reads. -/
structure ItemBank where
  guild : Guild
  tabs : Nat
  items : Nat × Nat → Option BankItem
  nextItemGuid : Nat
  moves : List ItemMove

/-- A slot of a bank as the source or the target of a move: `m_container` and `m_slotId`. -/
structure BankMoveItemData where
  container : Nat
  slotId : Nat
  deriving DecidableEq, Repr

namespace RankInfo

/-- `GetBankTabRights`. -/
def getBankTabRights (info : RankInfo) (tabId : Nat) : UInt8 :=
  if tabId < GUILD_BANK_MAX_TABS then
    ((info.bankTabRightsAndSlots[tabId]?).map (·.rights)).getD 0
  else 0

/-- `GetBankTabSlotsPerDay`. -/
def getBankTabSlotsPerDay (info : RankInfo) (tabId : Nat) : UInt32 :=
  if tabId < GUILD_BANK_MAX_TABS then
    ((info.bankTabRightsAndSlots[tabId]?).map (·.slots)).getD 0
  else 0

end RankInfo

/-- `GetBankTabWithdrawValue`. -/
def Member.getBankTabWithdrawValue (member : Member) (tabId : Nat) : Nat :=
  member.bankWithdraw[tabId]?.getD 0

/-- `UpdateBankTabWithdrawValue`. -/
def Member.updateBankTabWithdrawValue (member : Member) (tabId amount : Nat) : Member :=
  { member with
    bankWithdraw := member.bankWithdraw.modify tabId fun value => (value + amount) % 2 ^ 32 }

namespace ItemBank

variable (maxStack : Nat → Nat) (s : ItemBank)

/-! ### Rights -/

/-- `_GetRankBankTabSlotsPerDay`. -/
def getRankBankTabSlotsPerDay (rankId tabId : Nat) : UInt32 :=
  if tabId < s.tabs then
    ((s.guild.getRankInfo rankId).map (·.getBankTabSlotsPerDay tabId)).getD 0
  else 0

/-- `_GetRankBankTabRights`. -/
def getRankBankTabRights (rankId tabId : Nat) : UInt8 :=
  ((s.guild.getRankInfo rankId).map (·.getBankTabRights tabId)).getD 0

/-- `_GetMemberRemainingSlots`. The subtraction is one of `uint32`, read as an `int32`. -/
def getMemberRemainingSlots (member : Member) (tabId : Nat) : Int :=
  if member.rankId = GR_GUILDMASTER then Int.bmod GUILD_WITHDRAW_SLOT_UNLIMITED.toNat (2 ^ 32)
  else if s.getRankBankTabRights member.rankId tabId &&& GUILD_BANK_RIGHT_VIEW_TAB ≠ 0 then
    let remaining := Int.bmod ((s.getRankBankTabSlotsPerDay member.rankId tabId).toNat -
      member.getBankTabWithdrawValue tabId) (2 ^ 32)
    if 0 < remaining then remaining else 0
  else 0

/-- `_MemberHasTabRights`. -/
def memberHasTabRights (player tabId : Nat) (rights : UInt8) : Bool :=
  match s.guild.getMember player with
  | some member =>
    member.rankId = GR_GUILDMASTER || s.guild.leaderGuid = player ||
      s.getRankBankTabRights member.rankId tabId &&& rights = rights
  | none => false

variable (player : Nat)

/-- `HasStoreRights`. Within a tab everybody has them. -/
def hasStoreRights (data other : BankMoveItemData) : Bool :=
  other.container = data.container ||
    s.memberHasTabRights player data.container GUILD_BANK_RIGHT_DEPOSIT_ITEM

/-- `HasWithdrawRights`. Within a tab everybody has them. -/
def hasWithdrawRights (data other : BankMoveItemData) : Bool :=
  other.container = data.container ||
    match s.guild.getMember player with
    | some member => s.getMemberRemainingSlots member data.container ≠ 0
    | none => false

/-! ### Room -/

/-- `_GetItem`. -/
def getItem (tabId slotId : Nat) : Option BankItem :=
  if tabId < s.tabs ∧ slotId < GUILD_BANK_MAX_SLOTS then s.items (tabId, slotId) else none

/-- `_ReserveSpace` in a slot: the positions that are reserved and how many items are left, or
nothing when the slot has no room. -/
def reserveSpace (slotId : Nat) (item : BankItem) (dest : Option BankItem)
    (reserved : List ItemPosCount × Nat) : Option (List ItemPosCount × Nat) :=
  let reserve (requiredSpace : Nat) : List ItemPosCount × Nat :=
    let requiredSpace := min requiredSpace reserved.2
    if ∃ pos ∈ reserved.1, pos.pos = slotId then reserved
    else (reserved.1 ++ [⟨slotId, requiredSpace⟩], reserved.2 - requiredSpace)
  match dest with
  | some dest =>
    if dest.entry ≠ item.entry ∨ maxStack item.entry ≤ dest.count then none
    else some (reserve (maxStack item.entry - dest.count))
  | none => some (reserve (maxStack item.entry))

/-- The item of a slot, unless it is the one that is stored. -/
def otherItem (tabId slotId : Nat) (item : BankItem) : Option BankItem :=
  (s.getItem tabId slotId).filter fun dest => dest.guid ≠ item.guid

/-- What `CanStoreItemInTab` does with a slot: when merging, only a slot with an item is used,
otherwise only one without. -/
def canStoreItemInSlot (data : BankMoveItemData) (item : BankItem) (merge : Bool)
    (reserved : List ItemPosCount × Nat) (slotId : Nat) : List ItemPosCount × Nat :=
  if reserved.2 = 0 ∨ slotId = data.slotId then reserved
  else
    let dest := s.otherItem data.container slotId item
    if dest.isSome = merge then (reserveSpace maxStack slotId item dest reserved).getD reserved
    else reserved

/-- `CanStoreItemInTab`. -/
def canStoreItemInTab (data : BankMoveItemData) (item : BankItem) (merge : Bool)
    (reserved : List ItemPosCount × Nat) : List ItemPosCount × Nat :=
  (List.range GUILD_BANK_MAX_SLOTS).foldl (s.canStoreItemInSlot maxStack data item merge) reserved

/-- `CanStore` for a slot that is given: the positions where the item goes. -/
def canStore (data : BankMoveItemData) (item : BankItem) (swap : Bool) :
    Option (List ItemPosCount) :=
  if item.soulBound then none
  else if s.tabs ≤ data.container then none
  else
    let dest := if swap then none else s.otherItem data.container data.slotId item
    match reserveSpace maxStack data.slotId item dest ([], item.count) with
    | none => none
    | some reserved =>
      let merged :=
        if 1 < maxStack item.entry then s.canStoreItemInTab maxStack data item true reserved
        else reserved
      let all := s.canStoreItemInTab maxStack data item false merged
      if all.2 = 0 then some all.1 else none

/-! ### Moves -/

def setItem (tabId slotId : Nat) (item : Option BankItem) : ItemBank :=
  { s with items := Function.update s.items (tabId, slotId) item }

/-- `_UpdateMemberWithdrawSlots`. -/
def updateMemberWithdrawSlots (player tabId : Nat) : ItemBank :=
  { s with guild := s.guild.modifyMember player (·.updateBankTabWithdrawValue tabId 1) }

/-- `RemoveItem`: the item, or so many of it when it is split. -/
def removeItem (data other : BankMoveItemData) (item : BankItem) (splitedAmount : Nat) : ItemBank :=
  let removed := s.setItem data.container data.slotId
    (if splitedAmount ≠ 0 then some { item with count := item.count - splitedAmount } else none)
  if other.container ≠ data.container then removed.updateMemberWithdrawSlots player data.container
  else removed

/-- `CloneItem`: a new object with so many of the item. -/
def cloneItem (item : BankItem) (count : Nat) : BankItem × ItemBank :=
  ({ item with guid := s.nextItemGuid, count := min count (maxStack item.entry) },
    { s with nextItemGuid := s.nextItemGuid + 1 })

/-- `_StoreItem`: added to the item of the slot, or as an item of its own. -/
def storeItemAt (tabId : Nat) (item : BankItem) (pos : ItemPosCount) (clone : Bool) : ItemBank :=
  match s.getItem tabId pos.pos with
  | some dest => s.setItem tabId pos.pos (some { dest with count := dest.count + pos.count })
  | none =>
    if clone then
      let (cloned, s) := s.cloneItem maxStack item pos.count
      s.setItem tabId pos.pos (some cloned)
    else s.setItem tabId pos.pos (some { item with count := pos.count })

/-- `StoreItem`. All positions but the last get a clone. -/
def storeItem (tabId : Nat) (item : BankItem) : List ItemPosCount → ItemBank → ItemBank
  | [], s => s
  | [pos], s => s.storeItemAt maxStack tabId item pos false
  | pos :: next :: rest, s =>
    storeItem tabId item (next :: rest) (s.storeItemAt maxStack tabId item pos true)

/-- The record of a move. -/
def recordMove (src dest : BankMoveItemData) : ItemBank :=
  { s with moves := s.moves ++ [{ player, source := src.container, target := dest.container }] }

/-- `_DoItemsMove` of an item, or of a clone of so many of it, to where there is room. -/
def moveItem (src dest : BankMoveItemData) (srcItem item : BankItem)
    (splitedAmount : Nat) : Option ItemBank :=
  (s.canStore maxStack dest item false).map fun positions =>
    storeItem maxStack dest.container item positions
      ((s.recordMove player src dest).removeItem player src dest srcItem splitedAmount)

/-- `_DoItemsMove` of two items that change places. -/
def exchangeItems (src dest : BankMoveItemData) (srcItem destItem : BankItem) : Option ItemBank :=
  match s.canStore maxStack dest srcItem true, s.canStore maxStack src destItem true with
  | some destPositions, some srcPositions =>
    let moved := (s.recordMove player src dest).recordMove player dest src
    let removed := (moved.removeItem player src dest srcItem 0).removeItem player dest src destItem 0
    some (storeItem maxStack src.container destItem srcPositions
      (storeItem maxStack dest.container srcItem destPositions removed))
  | _, _ => none

/-- `_MoveItems`: a part of the item is split off, or all of it is moved, or it changes places with
the item in the way. -/
def moveItems (src dest : BankMoveItemData) (splitedAmount : Nat) : ItemBank :=
  match s.getItem src.container src.slotId with
  | none => s
  | some srcItem =>
    if srcItem.count < splitedAmount then s
    else
      let splitedAmount := if splitedAmount = srcItem.count then 0 else splitedAmount
      if !s.hasStoreRights player dest src then s
      else if !s.hasWithdrawRights player src dest then s
      else if splitedAmount ≠ 0 then
        let (cloned, s) := s.cloneItem maxStack srcItem splitedAmount
        (s.moveItem maxStack player src dest srcItem cloned splitedAmount).getD s
      else
        match s.moveItem maxStack player src dest srcItem srcItem 0 with
        | some moved => moved
        | none =>
          match s.getItem dest.container dest.slotId with
          | none => s
          | some destItem =>
            if !s.hasStoreRights player src dest then s
            else if !s.hasWithdrawRights player dest src then s
            else (s.exchangeItems maxStack player src dest srcItem destItem).getD s

end ItemBank

/-- A call of `SwapItems`. -/
structure SwapCall where
  player : Nat
  tabId : Nat
  slotId : Nat
  destTabId : Nat
  destSlotId : Nat
  splitedAmount : Nat

/-- `SwapItems`. -/
def ItemBank.swapItems (maxStack : Nat → Nat) (s : ItemBank) (call : SwapCall) : ItemBank :=
  if s.tabs ≤ call.tabId ∨ GUILD_BANK_MAX_SLOTS ≤ call.slotId ∨ s.tabs ≤ call.destTabId ∨
      GUILD_BANK_MAX_SLOTS ≤ call.destSlotId then s
  else if call.tabId = call.destTabId ∧ call.slotId = call.destSlotId then s
  else
    s.moveItems maxStack call.player ⟨call.tabId, call.slotId⟩ ⟨call.destTabId, call.destSlotId⟩
      call.splitedAmount

end TrinityCore.Guilds
