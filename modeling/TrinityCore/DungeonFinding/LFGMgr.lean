import Std.Data.ExtTreeSet.Lemmas
import TrinityCore.Entities.ObjectGuid

/-!
# What the dungeon finder's queue asks its manager

The parts of `LFG.h`, `LFGMgr.h` and `LFGMgr.cpp` that `LFGQueue` uses: the dungeons with the
roles they need, the check of the roles of a group, and the manager's answers about players and
groups.
-/

namespace TrinityCore.DungeonFinding

open Std

/-! ### Roles -/

/-- The roles of `LfgRoles` that a dungeon needs. -/
inductive LfgRole
  | tank
  | healer
  | damage
  deriving DecidableEq, Repr

/-- `PLAYER_ROLE_TANK`, `PLAYER_ROLE_HEALER`, `PLAYER_ROLE_DAMAGE` -/
def LfgRole.bit : LfgRole → UInt8
  | tank => 0x02
  | healer => 0x04
  | damage => 0x08

/-- `PLAYER_ROLE_LEADER` -/
def playerRoleLeader : UInt8 := 0x01

/-- `LfgRolesMap` -/
abbrev LfgRolesMap := ExtTreeMap ObjectGuid UInt8

/-- `LfgDungeonSet` -/
abbrev LfgDungeonSet := ExtTreeSet UInt32

/-- `LFGDungeonData`: the roles it needs. -/
structure LFGDungeonData where
  requiredTanks : UInt32
  requiredHealers : UInt32
  requiredDamageDealers : UInt32
  deriving DecidableEq, Repr

namespace LFGDungeonData

/-- `GetMaxGroupSize` -/
def getMaxGroupSize (dungeon : LFGDungeonData) : UInt32 :=
  dungeon.requiredTanks + dungeon.requiredHealers + dungeon.requiredDamageDealers

/-- How many of a role the dungeon needs. -/
def required (dungeon : LFGDungeonData) : LfgRole → UInt32
  | .tank => dungeon.requiredTanks
  | .healer => dungeon.requiredHealers
  | .damage => dungeon.requiredDamageDealers

end LFGDungeonData

/-- `LfgDungeonStore` -/
abbrev LfgDungeonStore := UInt32 → Option LFGDungeonData

/-! ### `LFGMgr::CheckGroupRoles` -/

/-- One of the three tests of a player's role: try without it when the player has others, else
count it. The left result leaves `CheckGroupRoles`, the right one goes on counting. -/
def checkRole (recur : LfgRolesMap → Option LfgRolesMap) (dungeon : LFGDungeonData)
    (groles : LfgRolesMap) (guid : ObjectGuid) (value : UInt8) (r : LfgRole)
    (count : LfgRole → UInt8) : Except (Option LfgRolesMap) (LfgRole → UInt8) :=
  let role := value &&& ~~~playerRoleLeader
  if role &&& r.bit ≠ 0 then
    if role ≠ r.bit then
      match recur (groles.insert guid (value - r.bit)) with
      | some assigned => .error (some assigned)
      | none => .ok count
    else if (count r).toUInt32 = dungeon.required r then .error none
    else .ok fun s => if s = r then count r + 1 else count s
  else .ok count

/-- The three tests of a player's role. -/
def checkRoles (recur : LfgRolesMap → Option LfgRolesMap) (dungeon : LFGDungeonData)
    (groles : LfgRolesMap) (guid : ObjectGuid) (value : UInt8) (count : LfgRole → UInt8) :
    Except (Option LfgRolesMap) (LfgRole → UInt8) := do
  let count ← checkRole recur dungeon groles guid value .damage count
  let count ← checkRole recur dungeon groles guid value .healer count
  checkRole recur dungeon groles guid value .tank count

/-- The loop of `CheckGroupRoles` over the players. -/
def checkPlayers (recur : LfgRolesMap → Option LfgRolesMap) (dungeon : LFGDungeonData)
    (groles : LfgRolesMap) : List (ObjectGuid × UInt8) → (LfgRole → UInt8) → Option LfgRolesMap
  | [], count =>
    if (count .tank).toNat + (count .healer).toNat + (count .damage).toNat =
        (UInt8.ofNat groles.size).toNat then some groles
    else none
  | (guid, value) :: rest, count =>
    if value &&& ~~~playerRoleLeader = 0 then none
    else
      match checkRoles recur dungeon groles guid value count with
      | .error result => result
      | .ok count => checkPlayers recur dungeon groles rest count

/-- `CheckGroupRoles`, as deep as `fuel`: the roles assigned, or `none` for `false`, which
leaves the roles as they are. -/
def checkGroupRolesWithin (dungeon : LFGDungeonData) : Nat → LfgRolesMap → Option LfgRolesMap
  | 0, _ => none
  | fuel + 1, groles =>
    if groles.isEmpty then none
    else checkPlayers (checkGroupRolesWithin dungeon fuel) dungeon groles groles.toList fun _ => 0

/-- `CheckGroupRoles`. Each call within takes one of three roles from a player. -/
def checkGroupRoles (dungeon : LFGDungeonData) (groles : LfgRolesMap) : Option LfgRolesMap :=
  checkGroupRolesWithin dungeon (3 * groles.size + 1) groles

/-! ### The manager's answers -/

/-- `LfgState` -/
inductive LfgState
  | none
  | rolecheck
  | queued
  | proposal
  | dungeon
  | finishedDungeon
  | raidbrowser
  deriving DecidableEq, Repr

/-- The state of `LFGMgr` and of the players that the queue looks at. -/
structure LFGMgr where
  /-- `GetState` -/
  getState : ObjectGuid → LfgState
  /-- `GetOldState` -/
  getOldState : ObjectGuid → LfgState
  /-- `ObjectAccessor::FindConnectedPlayer` finds somebody. -/
  connected : ObjectGuid → Bool
  /-- `PlayerSocial::HasIgnore` of the first player about the second one. -/
  socialIgnore : ObjectGuid → ObjectGuid → Bool
  /-- `GameTime::GetGameTime` -/
  gameTime : Int

namespace LFGMgr

variable (mgr : LFGMgr)

/-- `IsLfgGroup`: `LfgGroupData::IsLfgGroup` asks for the old state. -/
def isLfgGroup (guid : ObjectGuid) : Bool :=
  guid ≠ 0 && ObjectGuid.getHigh guid = 0x1F5 && mgr.getOldState guid ≠ .none

/-- `HasIgnore` -/
def hasIgnore (guid1 guid2 : ObjectGuid) : Bool :=
  mgr.connected guid1 && mgr.connected guid2 &&
    (mgr.socialIgnore guid1 guid2 || mgr.socialIgnore guid2 guid1)

/-- `AllQueued` -/
def allQueued (check : List ObjectGuid) : Bool :=
  check ≠ [] && check.all fun guid => mgr.getState guid = .queued

theorem hasIgnore_comm (guid1 guid2 : ObjectGuid) :
    mgr.hasIgnore guid1 guid2 = mgr.hasIgnore guid2 guid1 := by
  rw [hasIgnore, hasIgnore, Bool.and_comm (mgr.connected guid1), Bool.or_comm]

end LFGMgr

end TrinityCore.DungeonFinding
