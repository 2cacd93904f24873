import ControlPlane.Lib.Rounding
import ControlPlane.Lib.Floating
import ControlPlane.Lib.Arithmetic
import ControlPlane.Lib.Interleave
import ControlPlane.Lib.Simulation
import ControlPlane.Lib.Progress
import ControlPlane.Lib.UniqueIndex
import ControlPlane.Lib.FindOrInsert
import ControlPlane.Lib.Expiring
import ControlPlane.Lib.Serving
import ControlPlane.Lib.StableSort
import ControlPlane.Lib.Checked
import ControlPlane.Lib.Cursor
import ControlPlane.Lib.Smoothing
import ControlPlane.Lib.Dict
import ControlPlane.Lib.Exposition
import ControlPlane.Lib.Writes
import ControlPlane.Errors
import ControlPlane.Schemas
import ControlPlane.Json
import ControlPlane.TokenEstimator
import ControlPlane.PricingEngine
import ControlPlane.Filtering
import ControlPlane.Scoring
import ControlPlane.Comparison
import ControlPlane.Relaxation
import ControlPlane.Ladder
import ControlPlane.CheckedEngine
import ControlPlane.Ranges
import ControlPlane.CatalogOrder
import ControlPlane.Tiers
import ControlPlane.Persistence
import ControlPlane.Quota
import ControlPlane.Metrics
import ControlPlane.Service
import ControlPlane.Steps
import ControlPlane.Rows
import ControlPlane.Provenance
import ControlPlane.Authorship
import ControlPlane.Idempotency
import ControlPlane.Traces
import ControlPlane.IdempotencyRace
import ControlPlane.SequentialCreation
import ControlPlane.QuotaSteps
import ControlPlane.Ledger
import ControlPlane.OutcomeRetry
import ControlPlane.OutcomeTransaction
import ControlPlane.OutcomeStorage
import ControlPlane.Isolation
import ControlPlane.Budget
import ControlPlane.Closing
import ControlPlane.CatalogVersions
import ControlPlane.Redis
import ControlPlane.RedisKeys
import ControlPlane.RedisRefinement
import ControlPlane.RedisSlots
import ControlPlane.RedisRejection
import ControlPlane.RedisRpm
import ControlPlane.RedisExpiry
import ControlPlane.RedisCreation
import ControlPlane.RedisService
import ControlPlane.RedisRows
import ControlPlane.RedisCommands
import ControlPlane.RedisTogether
import ControlPlane.OpenLimit
import ControlPlane.EventConsumer
import ControlPlane.ConsumerSteps
import ControlPlane.ProbeDelivery
import ControlPlane.LatencyTracker
import ControlPlane.Smoothing
import ControlPlane.SmoothedPercentile
import ControlPlane.Readiness
import ControlPlane.RawSignals
import ControlPlane.ProbeRound
import ControlPlane.MetricsStore
import ControlPlane.MetricsPage
import ControlPlane.CatalogDocument
import ControlPlane.ModelIds
import ControlPlane.StoredSignals
import ControlPlane.BadRequest
import ControlPlane.Credentials
import ControlPlane.Bootstrap
import ControlPlane.Http
import ControlPlane.MetricsLedger
import ControlPlane.StatementRefinement
import ControlPlane.ProbePipeline
