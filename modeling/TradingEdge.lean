import TradingEdge.Library.Dict
import TradingEdge.Library.Machine
import TradingEdge.Library.Table
import TradingEdge.Library.Custody
import TradingEdge.Library.Buffer
import TradingEdge.Library.Epochs
import TradingEdge.Library.Slots
import TradingEdge.Library.Interleave
import TradingEdge.Library.Rounding
import TradingEdge.Library.PriceLevels
import TradingEdge.Library.Replica
import TradingEdge.Library.ReadModifyWrite
import TradingEdge.Library.WhileLoop
import TradingEdge.Library.SlidingWindow
import TradingEdge.Library.WeightedMean
import TradingEdge.Model.Types
import TradingEdge.Model.Text
import TradingEdge.Program.FillModel
import TradingEdge.Program.Risk
import TradingEdge.Program.RiskManager
import TradingEdge.Program.Indicators
import TradingEdge.Program.BacktestDriver
import TradingEdge.Program.PriceTables
import TradingEdge.Program.TickMessage
import TradingEdge.Program.ExecClient
import TradingEdge.Program.BacktestLoader
import TradingEdge.Program.BlockBootstrap
import TradingEdge.Program.BackfillSettles
import TradingEdge.Program.PaperDriver
import TradingEdge.Program.PauseControl
import TradingEdge.Program.BackfillRuns
import TradingEdge.Program.Reconciliation
import TradingEdge.Program.TickRecorder
import TradingEdge.Program.AfmlFeatures
import TradingEdge.Program.Vpin
import TradingEdge.Program.TrendConfirm
import TradingEdge.Program.OracleLag
import TradingEdge.Program.UsdtBasis
import TradingEdge.Program.CommonDb
import TradingEdge.Program.MarketSlug
import TradingEdge.Program.TrainLast90s
import TradingEdge.Program.WalkForward
import TradingEdge.Program.CandleIngest
import TradingEdge.Program.PolymarketDiscovery
import TradingEdge.Program.TelegramCommands
import TradingEdge.Program.LlmTurns
import TradingEdge.Program.Feeds
import TradingEdge.Program.ClobFeed
import TradingEdge.Program.RecorderLoop
import TradingEdge.Program.LimitBookSim
import TradingEdge.Program.OrderStatements
import TradingEdge.Program.MMFeatures
import TradingEdge.Program.MMSafety
import TradingEdge.Program.SafetyCalls
import TradingEdge.Program.MMRebate
import TradingEdge.Program.SharedTables
import TradingEdge.Program.MMDriver
import TradingEdge.Program.MMFleet
import TradingEdge.Analysis.FillAgreement
import TradingEdge.Analysis.NoLookAhead
import TradingEdge.Analysis.SettlementAgreement
import TradingEdge.Analysis.PriceAnchors
import TradingEdge.Analysis.BookTops
import TradingEdge.Analysis.StrikeLatch
import TradingEdge.Analysis.DriverSteps
import TradingEdge.Analysis.Provenance
import TradingEdge.Analysis.RiskRuns
import TradingEdge.Analysis.NetPnl
import TradingEdge.Analysis.EntryUniqueness
import TradingEdge.Analysis.EntryAtomicity
import TradingEdge.Analysis.RestartSafety
import TradingEdge.Analysis.PauseProtocol
import TradingEdge.Analysis.LossPause
import TradingEdge.Analysis.RiskLedger
import TradingEdge.Analysis.SettleTiming
import TradingEdge.Analysis.MarketIsolation
import TradingEdge.Analysis.FeatureWindows
import TradingEdge.Analysis.DecisionParity
import TradingEdge.Analysis.LimitBookAccounting
import TradingEdge.Analysis.OrderStatus
import TradingEdge.Analysis.KillSwitch
import TradingEdge.Analysis.MakerSteps
import TradingEdge.Analysis.QuoteLedger
import TradingEdge.Analysis.MakerQuotes
import TradingEdge.Analysis.InventoryCap
import TradingEdge.Analysis.LedgerCoherence
import TradingEdge.Analysis.MakerFleet
import TradingEdge.Analysis.GlobalCaps
import TradingEdge.Analysis.SettleUniqueness
import TradingEdge.Analysis.TableEffects
import TradingEdge.Analysis.OrderFiling
import TradingEdge.Analysis.FillJournal
import TradingEdge.Analysis.Reconciliation
import TradingEdge.Analysis.SettleFailure
import TradingEdge.Analysis.BackfillEntries
import TradingEdge.Analysis.BasisCorrection
import TradingEdge.Analysis.FoldSeparation
import TradingEdge.Analysis.TrainTestSplit
import TradingEdge.Analysis.CandlePersistence
import TradingEdge.Analysis.ResolutionRecorded
import TradingEdge.Analysis.KillSwitchConfirm
import TradingEdge.Analysis.LostTurns
import TradingEdge.Analysis.ReplaySteps
import TradingEdge.Analysis.ResampledTimers
import TradingEdge.Analysis.ReplicateTrades
import TradingEdge.Analysis.Reproducibility
import TradingEdge.Analysis.VpinAccounting
import TradingEdge.Analysis.QuoteShape
import TradingEdge.Analysis.ExposureReduction
import TradingEdge.Analysis.BreachHistory
import TradingEdge.Analysis.CestaSpot
import TradingEdge.Library.Bisect
import TradingEdge.Program.MacroProvider
import TradingEdge.Program.Last90sFeatures
import TradingEdge.Program.Last90sForecaster
import TradingEdge.Analysis.MacroWindow
import TradingEdge.Library.CursorWalk
import TradingEdge.Program.OhlcvBackfills
import TradingEdge.Analysis.FeatureCompleteness
import TradingEdge.Analysis.BackfillCoverage
import TradingEdge.Analysis.BybitSpans
import TradingEdge.Analysis.OkxPages
import TradingEdge.Library.Neighbours
import TradingEdge.Program.FeatureErrors
import TradingEdge.Analysis.TapeBounds
import TradingEdge.Library.Scans
import TradingEdge.Analysis.AdxBounds
import TradingEdge.Library.Drawdown
import TradingEdge.Program.TradeKpis
import TradingEdge.Analysis.DrawdownAgreement
import TradingEdge.Program.TakerFeeCanary
import TradingEdge.Analysis.CanaryMonotone
import TradingEdge.Library.KeySort
import TradingEdge.Program.HmmRegime
import TradingEdge.Analysis.RegimeLabels
import TradingEdge.Program.FoldLoops
import TradingEdge.Analysis.FoldCompleteness
import TradingEdge.Library.Grouping
import TradingEdge.Program.LoaderWindow
import TradingEdge.Analysis.LoaderGrouping
import TradingEdge.Library.Pieces
import TradingEdge.Model.Paths
import TradingEdge.Program.ContextLoader
import TradingEdge.Program.Prompt
import TradingEdge.Analysis.ContextFences
import TradingEdge.Analysis.PathConfinement
import TradingEdge.Library.Timeline
import TradingEdge.Analysis.FillIntensity
import TradingEdge.Library.Cuts
import TradingEdge.Library.Median
import TradingEdge.Library.Plurality
import TradingEdge.Program.MessageSplit
import TradingEdge.Analysis.MessageChunks
import TradingEdge.Program.FoldVerdicts
import TradingEdge.Program.RulesReplay
import TradingEdge.Analysis.FoldAggregation
import TradingEdge.Analysis.RulesReporting
import TradingEdge.Program.PaperVsBacktest
import TradingEdge.Analysis.ComparisonVerdicts
import TradingEdge.Library.Simulation
import TradingEdge.Library.AckFeed
import TradingEdge.Program.UpdatePolling
import TradingEdge.Analysis.UpdateDelivery
import TradingEdge.Library.PrunedLog
import TradingEdge.Program.AlertClient
import TradingEdge.Analysis.AlertLimits
import TradingEdge.Program.Watcher
import TradingEdge.Analysis.WatcherAlerts
import TradingEdge.Program.Supervisor
import TradingEdge.Analysis.CrashBudget
import TradingEdge.Program.MarketFeed
import TradingEdge.Analysis.FeedSubscriptions
import TradingEdge.Program.ModelRegistry
import TradingEdge.Analysis.ActiveModels
import TradingEdge.Library.OffsetPages
import TradingEdge.Program.PolymarketTrades
import TradingEdge.Analysis.TradePages
import TradingEdge.Library.BatchSink
import TradingEdge.Program.TradeStreams
import TradingEdge.Analysis.TradeAccounting
import TradingEdge.Program.LiquidationPolls
import TradingEdge.Analysis.LiquidationBars
import TradingEdge.Library.Latch
import TradingEdge.Program.WatcherCrons
import TradingEdge.Analysis.CronFirings
import TradingEdge.Program.EstimatorStore
import TradingEdge.Analysis.EstimatorRestarts
import TradingEdge.Analysis.ChainlinkQuotes
import TradingEdge.Analysis.PriceStreams
