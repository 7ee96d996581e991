import EasyTrade.Core.Program
import EasyTrade.Core.Interleaving
import EasyTrade.Core.Table
import EasyTrade.Core.IdentityMap
import EasyTrade.Core.Ledger
import EasyTrade.Core.Replay
import EasyTrade.Core.AutoTable
import EasyTrade.Core.ArrayList
import EasyTrade.Core.RelyGuarantee
import EasyTrade.Core.Ownership
import EasyTrade.Broker.SessionSimulation
import EasyTrade.Broker.Events
import EasyTrade.Broker.ServiceSpecs
import EasyTrade.Broker.Batch
import EasyTrade.Broker.LongTradeSpecs
import EasyTrade.Broker.Requests
import EasyTrade.Broker.TradeLog
import EasyTrade.Broker.LedgerIntegrity
import EasyTrade.Broker.Conservation
import EasyTrade.Broker.Holdings
import EasyTrade.Broker.Failures
import EasyTrade.Broker.Lifecycle
import EasyTrade.Broker.Overdraft
import EasyTrade.Broker.Interference
import EasyTrade.Broker.HoldingRows
import EasyTrade.Broker.Concurrent
import EasyTrade.Broker.LostUpdate
import EasyTrade.Broker.DuplicateHoldings
import EasyTrade.Broker.OverlappingRuns
import EasyTrade.Core.InputStream
import EasyTrade.Core.Greatest
import EasyTrade.Core.Chronicle
import EasyTrade.CardOrders.Database
import EasyTrade.CardOrders.World
import EasyTrade.CardOrders.ThirdPartyService
import EasyTrade.CardOrders.System
import EasyTrade.CardOrders.Writers
import EasyTrade.CardOrders.OneOrder
import EasyTrade.CardOrders.CurrentStatus
import EasyTrade.CardOrders.FactoryCrisis
import EasyTrade.CardOrders.StatusHistory
import EasyTrade.CardOrders.WholeRequests
import EasyTrade.CardOrders.CreatedCards
import EasyTrade.CardOrders.HandOver
import EasyTrade.CardOrders.SentOnce
import EasyTrade.Pricing.PriceCsv
import EasyTrade.Pricing.Calculation
import EasyTrade.Pricing.CsvAgreement
import EasyTrade.Pricing.ContentCreator
import EasyTrade.Pricing.LatestPrices
import EasyTrade.ProblemOperator.Cluster
import EasyTrade.ProblemOperator.Operator
import EasyTrade.ProblemOperator.Alternation
import EasyTrade.ProblemOperator.Revisions
import EasyTrade.ProblemOperator.Restoring
import EasyTrade.Accounts.LoginService
import EasyTrade.Accounts.UniqueNames
import EasyTrade.Accounts.BalancedAccounts
import EasyTrade.Core.DateFormat
import EasyTrade.Accounts.AccountService
import EasyTrade.Offers.OfferService
import EasyTrade.Offers.Aggregator
import EasyTrade.Offers.Filters
import EasyTrade.Broker.Smooth
import EasyTrade.Frontend.BuyForms
import EasyTrade.Frontend.Affordable
import EasyTrade.Frontend.Transactions
import EasyTrade.Frontend.SellForms
import EasyTrade.Broker.RunAccounting
import EasyTrade.Broker.ProcessingRun
import EasyTrade.Broker.Succeeding
import EasyTrade.Broker.MissingPrices
import EasyTrade.Pricing.Fields
import EasyTrade.Pricing.MalformedLines
import EasyTrade.Core.Blocks
import EasyTrade.UserGenerator.SqlFiles
import EasyTrade.UserGenerator.SeedLedger
import EasyTrade.Broker.DatedHistory
import EasyTrade.Broker.Accepted
import EasyTrade.Core.Paging
import EasyTrade.Core.DoubleRounding
import EasyTrade.Core.TopRows
import EasyTrade.Cleanup.RetiredAccounts
import EasyTrade.Cleanup.Histories
import EasyTrade.Broker.TradePages
import EasyTrade.Pricing.PricingDataGenerator
import EasyTrade.Pricing.CandleContinuity
import EasyTrade.Pricing.CandleShape
import EasyTrade.Pricing.MinuteSeries
import EasyTrade.Pricing.InstrumentPrices
import EasyTrade.Pricing.InitialLoad
import EasyTrade.Aggregator.Clock
import EasyTrade.Aggregator.Stopping
import EasyTrade.Core.PrefixSums
import EasyTrade.Aggregator.DataGenerator
import EasyTrade.Core.SqlTuple
import EasyTrade.UserGenerator.ReadBack
import EasyTrade.Core.Rounding
import EasyTrade.Broker.StoredLedger
import EasyTrade.Broker.StoredHoldings
import EasyTrade.Broker.StoredRun
import EasyTrade.Broker.NextRun
import EasyTrade.LoadGenerator.Calculators
import EasyTrade.LoadGenerator.LongTrades
import EasyTrade.Core.Shuffle
import EasyTrade.FeatureFlags.FlagService
import EasyTrade.FeatureFlags.PluginManager
import EasyTrade.Offers.FailCounter
import EasyTrade.Offers.Slowdown
import EasyTrade.Accounts.LoginController
import EasyTrade.Broker.FraudDetection
import EasyTrade.Broker.RequestParts
import EasyTrade.Broker.TradeRecord
import EasyTrade.Broker.TradeRows
import EasyTrade.Broker.Quantities
import EasyTrade.Broker.Portfolio
import EasyTrade.UserGenerator.ActionDates
