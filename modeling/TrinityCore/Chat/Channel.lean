import Mathlib.Data.Finset.Basic
import Std.Data.ExtTreeMap.Lemmas
import TrinityCore.Entities.ObjectGuid

/-!
# Chat channels

The members, the owner and the bans of `Channel.h` and `Channel.cpp`. Packets to the members and
the copy in the database are left out. A player that an operation looks up by name is what the
lookup finds.
-/

namespace TrinityCore.Chat

/-- A connected player as channels see it: its permissions are those of its session. -/
structure Player where
  guid : ObjectGuid
  name : String := ""
  team : UInt32 := 0
  gmVisible : Bool := true
  changeChannelNotModerator : Bool := false
  twoSideInteractionChannel : Bool := false
  guid_ne_zero : guid ≠ 0

/-- `PlayerInfo`. -/
structure PlayerInfo where
  flags : UInt8 := 0
  invisible : Bool := false
  deriving DecidableEq, Repr

namespace PlayerInfo

variable (info : PlayerInfo)

/-- `HasFlag`. -/
def hasFlag (flag : UInt8) : Bool := info.flags &&& flag != 0

/-- Set or clear a flag. -/
def putFlag (flag : UInt8) (state : Bool) : PlayerInfo :=
  { info with flags := if state then info.flags ||| flag else info.flags &&& ~~~flag }

/-- `IsOwner`, of `MEMBER_FLAG_OWNER`. -/
def isOwner : Bool := info.hasFlag 1

/-- `SetOwner`. -/
def setOwner (state : Bool) : PlayerInfo := info.putFlag 1 state

/-- `IsModerator`, of `MEMBER_FLAG_MODERATOR`. -/
def isModerator : Bool := info.hasFlag 2

/-- `SetModerator`. -/
def setModerator (state : Bool) : PlayerInfo := info.putFlag 2 state

/-- `SetMuted`. -/
def setMuted (state : Bool) : PlayerInfo := info.putFlag 8 state

/-- `SetInvisible`. -/
def setInvisible (on : Bool) : PlayerInfo := { info with invisible := on }

end PlayerInfo

/-- `Channel`, as far as its membership reads it. -/
structure Channel where
  ownershipEnabled : Bool := true
  isOwnerInvisible : Bool := false
  channelFlags : UInt8 := 1
  channelId : UInt32 := 0
  ownerGuid : ObjectGuid := 0
  channelPassword : String := ""
  playersStore : Std.ExtTreeMap ObjectGuid PlayerInfo := ∅
  bannedStore : Finset ObjectGuid := ∅

namespace Channel

variable (channel : Channel)

/-- `IsConstant`. -/
def isConstant : Bool := channel.channelId != 0

/-- `HasFlag`. -/
def hasFlag (flag : UInt8) : Bool := channel.channelFlags &&& flag != 0

/-- `IsOn`. -/
def isOn (who : ObjectGuid) : Bool := channel.playersStore.contains who

/-- `IsBanned`. -/
def isBanned (guid : ObjectGuid) : Bool := decide (guid ∈ channel.bannedStore)

/-- Write through a reference to a member, if it is still one. -/
def updateMember (guid : ObjectGuid) (f : PlayerInfo → PlayerInfo) : Channel :=
  { channel with playersStore := channel.playersStore.modify guid f }

/-- `SetOwner(guid)`. -/
def setOwner (guid : ObjectGuid) : Channel :=
  let channel :=
    if channel.ownerGuid != 0 then channel.updateMember channel.ownerGuid (·.setOwner false)
    else channel
  let channel := { channel with ownerGuid := guid }
  if guid != 0 then
    channel.updateMember guid fun info => (info.setModerator true).setOwner true
  else channel

variable (player : Player)

/-- Whether `JoinChannel` lets a player in; `lfgRestricted` when the configuration keeps grouped
players out of the channel for groups. -/
def letsIn (pass : String) (lfgRestricted : Bool) : Bool :=
  !channel.isOn player.guid && !channel.isBanned player.guid
    && !(channel.channelPassword != "" && pass != channel.channelPassword)
    && !(channel.hasFlag 0x40 && lfgRestricted)

/-- What `JoinChannel` does with a player it lets in. -/
def enter (guid : ObjectGuid) (pinfo : PlayerInfo) : Channel :=
  let newChannel := channel.playersStore.isEmpty
  let channel := { channel with playersStore := channel.playersStore.insert guid pinfo }
  if !channel.isConstant && channel.ownershipEnabled && (newChannel || !pinfo.invisible)
      && (channel.ownerGuid == 0 || channel.isOwnerInvisible) then
    let channel := { channel with isOwnerInvisible := pinfo.invisible }
    (channel.setOwner guid).updateMember guid (·.setModerator true)
  else channel

/-- `JoinChannel`. -/
def joinChannel (pass : String) (lfgRestricted : Bool) : Channel :=
  if !channel.letsIn player pass lfgRestricted then channel
  else channel.enter player.guid { flags := 0, invisible := !player.gmVisible }

/-- The member that `LeaveChannel` gives the channel to: the first visible one, else the first. -/
def heir : Option (ObjectGuid × PlayerInfo) :=
  (channel.playersStore.toList.find? fun entry => !entry.2.invisible).or
    channel.playersStore.toList.head?

/-- `LeaveChannel`. -/
def leaveChannel : Channel :=
  match channel.playersStore[player.guid]? with
  | none => channel
  | some info =>
    let changeowner := info.isOwner
    let channel := { channel with playersStore := channel.playersStore.erase player.guid }
    if !channel.isConstant && changeowner && channel.ownershipEnabled then
      match channel.heir with
      | none => channel
      | some (newOwner, info) =>
        let channel := (channel.updateMember newOwner (·.setModerator true)).setOwner newOwner
        { channel with isOwnerInvisible := if info.invisible then true else channel.isOwnerInvisible }
    else channel

/-- Whether a player may act as a moderator. -/
def mayModerate : Bool :=
  match channel.playersStore[player.guid]? with
  | none => false
  | some info => info.isModerator || player.changeChannelNotModerator

/-- The victim of a `KickOrBan` that passes its checks. -/
def kickVictim (bad : Option Player) : Option ObjectGuid :=
  if !channel.mayModerate player then none
  else match bad with
    | none => none
    | some bad =>
      if !channel.isOn bad.guid then none
      else if !player.changeChannelNotModerator && channel.ownerGuid == bad.guid
          && player.guid != channel.ownerGuid then none
      else some bad.guid

/-- `KickOrBan`. -/
def kickOrBan (bad : Option Player) (ban : Bool) : Channel :=
  match channel.kickVictim player bad with
  | none => channel
  | some victim =>
    let changeowner := channel.ownerGuid == victim
    let channel : Channel := { channel with
      bannedStore :=
        if ban && !channel.isBanned victim then insert victim channel.bannedStore
        else channel.bannedStore
      playersStore := channel.playersStore.erase victim }
    if changeowner && channel.ownershipEnabled && !channel.playersStore.isEmpty then
      -- The reference to the actor is kept over the erase of the victim.
      (channel.updateMember player.guid (·.setModerator true)).setOwner player.guid
    else channel

/-- `UnBan`. -/
def unBan (bad : Option Player) : Channel :=
  if !channel.mayModerate player then channel
  else match bad with
    | none => channel
    | some bad =>
      if !channel.isBanned bad.guid then channel
      else { channel with bannedStore := channel.bannedStore.erase bad.guid }

/-- The member that `SetMode` and `SetOwner` find by name. -/
def findVictim (newp : Option Player) : Option ObjectGuid :=
  match newp with
  | none => none
  | some newp =>
    if !channel.isOn newp.guid
        || (player.team != newp.team
          && (!player.twoSideInteractionChannel || !newp.twoSideInteractionChannel)) then none
    else some newp.guid

/-- `SetMode`. -/
def setMode (p2n : String) (newp : Option Player) (mod set : Bool) : Channel :=
  if !channel.mayModerate player then channel
  else if player.guid == channel.ownerGuid && p2n == player.name && mod then channel
  else match channel.findVictim player newp with
    | none => channel
    | some victim =>
      if channel.ownerGuid == victim && channel.ownerGuid != player.guid then channel
      else if mod then channel.updateMember victim (·.setModerator set)
      else channel.updateMember victim (·.setMuted set)

/-- `SetInvisible`. -/
def setInvisible (player : Player) (on : Bool) : Channel :=
  if !channel.isOn player.guid then channel
  else
    let channel := channel.updateMember player.guid (·.setInvisible on)
    { channel with
      isOwnerInvisible :=
        if channel.ownerGuid == player.guid then on else channel.isOwnerInvisible }

/-- The new owner of a `SetOwner` by name that passes its checks. -/
def namedOwner (newp : Option Player) : Option ObjectGuid :=
  if !channel.isOn player.guid then none
  else if !player.changeChannelNotModerator && player.guid != channel.ownerGuid then none
  else channel.findVictim player newp

/-- `SetOwner` by name. -/
def setOwnerByName (newp : Option Player) : Channel :=
  match channel.namedOwner player newp with
  | none => channel
  | some victim => (channel.updateMember victim (·.setModerator true)).setOwner victim

end Channel

/-- The operations on a channel. -/
inductive Operation where
  | joinChannel (player : Player) (pass : String) (lfgRestricted : Bool)
  | leaveChannel (player : Player)
  | kickOrBan (player : Player) (bad : Option Player) (ban : Bool)
  | unBan (player : Player) (bad : Option Player)
  | setMode (player : Player) (p2n : String) (newp : Option Player) (mod set : Bool)
  | setInvisible (player : Player) (on : Bool)
  | setOwner (player : Player) (newp : Option Player)

/-- A channel after an operation. -/
def Channel.apply (channel : Channel) : Operation → Channel
  | .joinChannel player pass lfgRestricted => channel.joinChannel player pass lfgRestricted
  | .leaveChannel player => channel.leaveChannel player
  | .kickOrBan player bad ban => channel.kickOrBan player bad ban
  | .unBan player bad => channel.unBan player bad
  | .setMode player p2n newp mod set => channel.setMode player p2n newp mod set
  | .setInvisible player on => channel.setInvisible player on
  | .setOwner player newp => channel.setOwnerByName player newp

end TrinityCore.Chat
