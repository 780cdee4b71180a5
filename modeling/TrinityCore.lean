import TrinityCore.Bots.TraceExportAccounting
import TrinityCore.Bots.SpellQueueAgenda
import TrinityCore.Bots.VehicleExitIdentity
import TrinityCore.Magmaw.BaiterRotationWaves
import TrinityCore.Magmaw.TransferLaneIdentity
import TrinityCore.Magmaw.TransferLaneProgress
import TrinityCore.Bots.ActionArbiterOrder
import TrinityCore.Bots.RaidEncounterMask
import TrinityCore.Bots.RaidBossList
import TrinityCore.Bots.RaidReadback
import TrinityCore.Bots.RouteNativeCompletionRuns
import TrinityCore.Bots.RouteNativeAttempts
import TrinityCore.Bots.RouteNativeTransport
import TrinityCore.Bots.MovementLeases
import TrinityCore.Bots.ActionEvidence
import TrinityCore.Combat.TauntRanks
import TrinityCore.Combat.FilteredCombatEnd
import TrinityCore.Combat.ThreatRedirects
import TrinityCore.Combat.VictimSelection
import TrinityCore.Groups.LootRollRun
import TrinityCore.Packets.ByteBufferRoundTrip
import TrinityCore.Server.PacketFraming
import TrinityCore.Server.OutgoingStream
import TrinityCore.Utilities.EventAgenda
import TrinityCore.Utilities.EventLifecycle
import TrinityCore.Pools.SpawnCounts
import TrinityCore.Bots.RouteHoldProtocol
import TrinityCore.Chat.ChannelOwnership
import TrinityCore.Instances.BossEffects
import TrinityCore.Movement.GeneratorLifecycle
import TrinityCore.Utilities.TaskRepeats
import TrinityCore.Bots.RouteNativeJsonParser
import TrinityCore.Battlegrounds.QueueRuns
import TrinityCore.Bots.FailureStreak
import TrinityCore.Guilds.LogRestarts
import TrinityCore.Guilds.BankMoneyLaw
import TrinityCore.Guilds.BankItemLaw
import TrinityCore.Instances.InstanceResetRuns
import TrinityCore.Trading.TradeRuns
import TrinityCore.AuctionHouse.PendingCharges
import TrinityCore.AuctionHouse.EscrowRuns
import TrinityCore.Magmaw.RosterFingerprint
import TrinityCore.Encoding.Base64Canonical
import TrinityCore.DungeonFinding.Verdicts
import TrinityCore.DungeonFinding.RoleAssignment
import TrinityCore.Spells.CategoryExpiry
import TrinityCore.Spells.SchoolLockouts
import TrinityCore.Looting.AddItem
import TrinityCore.Groups.CountTheRoll
import TrinityCore.Packets.ByteBufferRecycled
import TrinityCore.Utilities.TimeStrings
import TrinityCore.Pools.CircularReferences
import TrinityCore.Chat.ChatLinkReturns
import TrinityCore.Battlegrounds.FillPlayersBalance
import TrinityCore.Containers.FlatSet
import TrinityCore.Guilds.GuildValidate
import TrinityCore.Guilds.GuildAuthority
import TrinityCore.Movement.DeferredOperations
import TrinityCore.Bots.DutyCallouts
import TrinityCore.Bots.RaidDefinitionJson
import TrinityCore.Magmaw.BaitLane
