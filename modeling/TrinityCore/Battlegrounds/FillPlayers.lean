import Mathlib.Algebra.BigOperators.Group.List.Basic
import TrinityCore.Battlegrounds.BattlegroundQueue

/-!
# Players for a running battleground

`FillPlayersToBG`: groups of the normal queues are selected for the free slots of a battleground,
and groups are kicked until both factions have about the same number of slots left. Free slots are
below `2 ^ 31`, and so are the sizes of the groups that are selected for them.
-/

namespace TrinityCore.Battlegrounds

/-- `BattlegroundQueueInvitationType`. -/
inductive InvitationType where
  | noBalance
  | balanced
  | even
  deriving DecidableEq, Repr

/-- A selection pool, and the groups of its queue from the iterator on. -/
structure Selection where
  pool : SelectionPool
  groups : List GroupId
  deriving DecidableEq, Repr

namespace BattlegroundQueue

variable (q : BattlegroundQueue)

/-- `ginfo->Players.size()`. -/
def groupSize (group : GroupId) : Nat := (q.ginfo group).players.length

/-- A turn of the loop of `KickGroup`: whether a group of about the size was found, and the place
of the group to kick. -/
def visitGroup (size : Nat) (groups : List GroupId) (best : Bool × Nat) (item : GroupId × Nat) :
    Bool × Nat :=
  if ((q.groupSize item.1 : Int) - size).natAbs ≤ 1 then (true, item.2)
  else if !best.1 && q.groupSize (groups.getD best.2 0) ≤ q.groupSize item.1 then (best.1, item.2)
  else best

/-- The loop of `KickGroup`: the last group of about the size, or else the last one of the largest
groups. -/
def groupToKick (size : Nat) (groups : List GroupId) : Nat :=
  (groups.zipIdx.foldl (q.visitGroup size groups) (false, 0)).2

/-- `SelectionPool::KickGroup`; absent where players are counted but there is no group. -/
def kickGroup (pool : SelectionPool) (size : Nat) : Option (Bool × SelectionPool) :=
  if pool.playerCount = 0 then some (true, pool)
  else
    let kick := q.groupToKick size pool.selectedGroups
    pool.selectedGroups[kick]?.map fun group =>
      (size + 1 < q.groupSize group,
        { selectedGroups := pool.selectedGroups.eraseIdx kick
          playerCount := pool.playerCount - q.groupSize group })

/-- The loops that call `AddGroup` for the groups from the iterator on, while it returns true. -/
def addGroups (desiredCount : Nat) : List GroupId → SelectionPool → Selection
  | [], pool => ⟨pool, []⟩
  | group :: rest, pool =>
    match q.addToPool pool group desiredCount with
    | (true, pool) => addGroups desiredCount rest pool
    | (false, pool) => ⟨pool, group :: rest⟩

/-- The slots where one of each faction is free and even teams are wanted: a faction with more
groups in its queue does not get its slot. -/
def evenSlots (invitationType : InvitationType) (aliCount hordeCount : UInt32)
    (aliFree hordeFree : Int) : Int × Int :=
  if invitationType = .even ∧ hordeFree = 1 ∧ aliFree = 1 ∧ aliCount ≠ hordeCount then
    let hordeExtra := max (hordeCount - aliCount).toInt32.toInt 0
    let aliExtra := max (aliCount - hordeCount).toInt32.toInt 0
    (max (aliFree - aliExtra) 0, max (hordeFree - hordeExtra) 0)
  else (aliFree, hordeFree)

/-- A turn of the balancing loop, where `own` is to lose a group; with whether it breaks the loop.
The differences are those from before the turn. -/
def kickOwn (ownFree ownDiff otherDiff : Int) (own other : Selection) :
    Option (Bool × Selection × Selection) := do
  let size := (otherDiff - ownDiff).toNat
  let (more, pool) ← q.kickGroup own.pool size
  let desiredCount := if otherDiff ≤ ownFree then (ownFree - otherDiff).toNat else 0
  let own := if more then q.addGroups desiredCount own.groups pool else { own with pool }
  if own.pool.playerCount = 0 then
    if ownFree ≤ otherDiff + 1 then some (true, own, other)
    else
      let (_, pool) ← q.kickGroup other.pool size
      some (false, own, { other with pool })
  else some (false, own, other)

/-- The balancing loop, with so many turns. -/
def balance (aliFree hordeFree : Int) : Nat → Selection → Selection → Option (Selection × Selection)
  | 0, _, _ => none
  | turns + 1, ali, horde =>
    let diffAli := aliFree - ali.pool.playerCount
    let diffHorde := hordeFree - horde.pool.playerCount
    if 1 < (diffAli - diffHorde).natAbs ∧
        (0 < horde.pool.playerCount ∨ 0 < ali.pool.playerCount) then
      if diffAli < diffHorde then
        match q.kickOwn aliFree diffAli diffHorde ali horde with
        | none => none
        | some (true, ali, horde) => some (ali, horde)
        | some (false, ali, horde) => balance aliFree hordeFree turns ali horde
      else
        match q.kickOwn hordeFree diffHorde diffAli horde ali with
        | none => none
        | some (true, horde, ali) => some (ali, horde)
        | some (false, horde, ali) => balance aliFree hordeFree turns ali horde
    else some (ali, horde)

/-- `FillPlayersToBG`, for a battleground with these free slots and with so many turns of its
balancing loop; absent where that has not ended then. -/
def fillPlayersToBG (turns : Nat) (invitationType : InvitationType) (bracketId : BracketId)
    (freeSlots : TeamId → Nat) : Option BattlegroundQueue :=
  let queue := fun (team : Team) => q.queuedGroups (bracketId, bgQueueNormal team.id)
  let free := fun (team : Team) => freeSlots team.id
  let pool := fun (team : Team) => q.selectionPools team.id
  let set := fun (ali horde : Selection) =>
    (q.setPool Team.alliance.id ali.pool).setPool Team.horde.id horde.pool
  let aliCount := UInt32.ofNat (queue .alliance).length
  let hordeCount := UInt32.ofNat (queue .horde).length
  let (aliFree, hordeFree) :=
    evenSlots invitationType aliCount hordeCount (free .alliance) (free .horde)
  let ali := q.addGroups aliFree.toNat ((queue .alliance).take aliCount.toNat) (pool .alliance)
  let horde := q.addGroups hordeFree.toNat ((queue .horde).take hordeCount.toNat) (pool .horde)
  if invitationType = .noBalance then some (set ali horde)
  else (q.balance aliFree hordeFree turns ali horde).map fun (ali, horde) => set ali horde

end BattlegroundQueue

end TrinityCore.Battlegrounds
