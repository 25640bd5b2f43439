import RasatTrading.Guarantees.Burned
import RasatTrading.Guarantees.Earned
import RasatTrading.Guarantees.EmergencyIds
import RasatTrading.Guarantees.Frozen
import RasatTrading.Guarantees.NumberEncoding
import RasatTrading.Guarantees.Orphans
import RasatTrading.Guarantees.Recovery
import RasatTrading.Guarantees.Revalidation
import RasatTrading.Guarantees.Replies
import RasatTrading.Guarantees.Fills
import RasatTrading.Guarantees.Submission
import RasatTrading.Guarantees.Closed
import RasatTrading.Guarantees.AuditTamper
import RasatTrading.Guarantees.Dedup
import RasatTrading.Guarantees.Freshness
import RasatTrading.Guarantees.Migrations
import RasatTrading.Guarantees.Overtaking
import RasatTrading.Guarantees.SingleDaemon
import RasatTrading.Guarantees.AnalysisHistory
import RasatTrading.Guarantees.Exposure
import RasatTrading.Guarantees.Filters
import RasatTrading.Guarantees.MergedHistory
import RasatTrading.Guarantees.Positions
import RasatTrading.Guarantees.ClientIds
import RasatTrading.Guarantees.PublishedFilters
import RasatTrading.Guarantees.Resale
import RasatTrading.Guarantees.Cancellations
import RasatTrading.Guarantees.Matches
import RasatTrading.Guarantees.Proximity
import RasatTrading.Guarantees.Credentials
import RasatTrading.Guarantees.Specs
import RasatTrading.Document.Total
import RasatTrading.Guarantees.Scans
import RasatTrading.Guarantees.Reconciled
import RasatTrading.Guarantees.Structures
import RasatTrading.Guarantees.Clusters
import RasatTrading.Guarantees.RateBudget
import RasatTrading.Guarantees.Liquidations
import RasatTrading.Guarantees.ClockOffset
import RasatTrading.Guarantees.Markers
import RasatTrading.Guarantees.Nesting
import RasatTrading.Guarantees.NumericChecks
import RasatTrading.Guarantees.WriteQueue
import RasatTrading.Guarantees.Rest
import RasatTrading.Guarantees.TradingLock
import RasatTrading.Guarantees.Gateway
import RasatTrading.Guarantees.Lifecycle
