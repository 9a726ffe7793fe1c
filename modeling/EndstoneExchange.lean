import EndstoneExchange.DurablePrograms
import EndstoneExchange.MarketOperations
import EndstoneExchange.SellEscrowOperations
import EndstoneExchange.EconomyTransferOperations
import EndstoneExchange.FrameListingOperations
import EndstoneExchange.ClearingSteps
import EndstoneExchange.MatchingRefinement
import EndstoneExchange.ClearingRefinement
import EndstoneExchange.ServiceRuns
import EndstoneExchange.RowHistories
import EndstoneExchange.OrderReconciliation
import EndstoneExchange.MoneyConservation
import EndstoneExchange.DeliveryOrigins
import EndstoneExchange.ItemConservation
import EndstoneExchange.EscrowStranding
import EndstoneExchange.PriceTimeMatching
import EndstoneExchange.MatchingWalk
import EndstoneExchange.MarketParticipants
import EndstoneExchange.ReferenceMatching
import EndstoneExchange.BalanceLedger
import EndstoneExchange.DeliveryReservations
import EndstoneExchange.TransferLedger
import EndstoneExchange.UncrossedBooks
import EndstoneExchange.NbtCodec
import EndstoneExchange.NbtRoundTrip
import EndstoneExchange.MarketLifecycle
import EndstoneExchange.MarketGenerations
import EndstoneExchange.FrameListingLedger
import EndstoneExchange.DatabaseConnections
import EndstoneExchange.ConnectionLoss
import EndstoneExchange.FrameGuard
import EndstoneExchange.FrameDrops
import EndstoneExchange.UmoneyGateway
import EndstoneExchange.UmoneyAttempts
import EndstoneExchange.UmoneySaga
import EndstoneExchange.UmoneyReconciliation
import EndstoneExchange.DelimitedText
import EndstoneExchange.ItemIdentity
import EndstoneExchange.LevelDbLogFormat
import EndstoneExchange.StructureReader
import EndstoneExchange.LevelDbRecovery
import EndstoneExchange.LevelDbLogOrder
import EndstoneExchange.GroupedRows
import EndstoneExchange.OrderBookQueries
import EndstoneExchange.BookSnapshots
import EndstoneExchange.BuyFunding
import EndstoneExchange.SellEscrowLifecycle
import EndstoneExchange.FrameFlows
import EndstoneExchange.FrameRepricing
import EndstoneExchange.FrameExclusion
import EndstoneExchange.FaultlessRuns
import EndstoneExchange.RecoveryDrain
import EndstoneExchange.AsciiNumerals
import EndstoneExchange.NearestGridPoints
import EndstoneExchange.LocalizedMessages
import EndstoneExchange.TradeForm
import EndstoneExchange.MoneyText
import EndstoneExchange.FormValues
import EndstoneExchange.SpendableFunding
import EndstoneExchange.MarketRetirement
import EndstoneExchange.PendingMarkers
import EndstoneExchange.GreedyPrefixes
import EndstoneExchange.InventoryEscrow
import EndstoneExchange.StructureNbt
import EndstoneExchange.FrameItemSearch
import EndstoneExchange.InventorySessions
import EndstoneExchange.InventoryLoops
import EndstoneExchange.DeliveryConservation
import EndstoneExchange.DeliveryRecovery
import EndstoneExchange.SellEscrowLayouts
import EndstoneExchange.SellEscrowRecovery
import EndstoneExchange.SaleSettlement
import EndstoneExchange.ConfigFiles
import EndstoneExchange.ConfigWriting
import EndstoneExchange.TradeDrafts
import EndstoneExchange.TradeDialogs
import EndstoneExchange.RecoverablePrograms
import EndstoneExchange.SchemaMigrations
import EndstoneExchange.MigrationSteps
import EndstoneExchange.MigrationRecovery
import EndstoneExchange.SpacedSelections
import EndstoneExchange.InteractionCooldowns
import EndstoneExchange.HologramSnapshots
import EndstoneExchange.HologramPackets
