import TkbCherry.Adapter.CycleWrites
import TkbCherry.Adapter.FixedLessons
import TkbCherry.Adapter.Metrics
import TkbCherry.Adapter.QualityCycles
import TkbCherry.Agent.Best
import TkbCherry.Agent.Calls
import TkbCherry.Agent.ExternalCpSat
import TkbCherry.Agent.Handoffs
import TkbCherry.Agent.Invariant
import TkbCherry.Agent.Leases
import TkbCherry.Agent.Model
import TkbCherry.Agent.Ops
import TkbCherry.Agent.Pairing
import TkbCherry.Agent.PairingProtocol
import TkbCherry.Agent.Retains
import TkbCherry.Agent.Runs
import TkbCherry.Agent.Settles
import TkbCherry.Browser.ApplyPayload
import TkbCherry.Browser.OffCells
import TkbCherry.Browser.PayloadLessons
import TkbCherry.Browser.Storage
import TkbCherry.Browser.StorageRuns
import TkbCherry.Engine.Atomic
import TkbCherry.Engine.Checks
import TkbCherry.Engine.Core
import TkbCherry.Engine.FocusCandidate
import TkbCherry.Engine.FocusGate
import TkbCherry.Engine.Hard
import TkbCherry.Engine.HardValid
import TkbCherry.Engine.Kempe
import TkbCherry.Engine.Lenient
import TkbCherry.Engine.LocationGate
import TkbCherry.Engine.MatchingTrim
import TkbCherry.Engine.Optimize
import TkbCherry.Engine.OptimizeControl
import TkbCherry.Engine.OptimizeMoves
import TkbCherry.Engine.OptimizeRuns
import TkbCherry.Engine.OptimizeState
import TkbCherry.Engine.PenaltyRuns
import TkbCherry.Engine.PlaceAgreement
import TkbCherry.Engine.PlaceDebt
import TkbCherry.Engine.PlaceJudge
import TkbCherry.Engine.PlaceNames
import TkbCherry.Engine.Places
import TkbCherry.Engine.RulePenalty
import TkbCherry.Engine.Scores
import TkbCherry.Engine.SoftCounters
import TkbCherry.Engine.SoftSchedule
import TkbCherry.Engine.State
import TkbCherry.Engine.Stats
import TkbCherry.Engine.SwapDeltas
import TkbCherry.Engine.Swaps
import TkbCherry.Engine.Tiling
import TkbCherry.Engine.TilingBlocks
import TkbCherry.Engine.TilingPlan
import TkbCherry.Engine.TilingSearch
import TkbCherry.Engine.TimeLimits
import TkbCherry.Engine.Writes
import TkbCherry.Fet.Booked
import TkbCherry.Fet.Capacity
import TkbCherry.Fet.Conflicts
import TkbCherry.Fet.Contiguity
import TkbCherry.Fet.Ejection
import TkbCherry.Fet.Model
import TkbCherry.Fet.Search
import TkbCherry.Fet.Swap
import TkbCherry.Http.Bounds
import TkbCherry.Http.Request
import TkbCherry.Jsonlite.Cursor
import TkbCherry.Jsonlite.Numbers
import TkbCherry.Jsonlite.Panics
import TkbCherry.Jsonlite.Parser
import TkbCherry.Jsonlite.Recognise
import TkbCherry.Jsonlite.Strings
import TkbCherry.Jsonlite.Values
import TkbCherry.Lib.Array2
import TkbCherry.Lib.AssocList
import TkbCherry.Lib.Booking
import TkbCherry.Lib.Calendar
import TkbCherry.Lib.Closure
import TkbCherry.Lib.Filling
import TkbCherry.Lib.Flow
import TkbCherry.Lib.Grouping
import TkbCherry.Lib.Growing
import TkbCherry.Lib.Incumbent
import TkbCherry.Lib.Indexed
import TkbCherry.Lib.Json
import TkbCherry.Lib.JsonGrammar
import TkbCherry.Lib.Matching
import TkbCherry.Lib.Placing
import TkbCherry.Lib.Pointwise
import TkbCherry.Lib.Programs
import TkbCherry.Lib.Quota
import TkbCherry.Lib.Reindex
import TkbCherry.Lib.Rewrite
import TkbCherry.Lib.Rows
import TkbCherry.Lib.Table
import TkbCherry.Lib.Text
import TkbCherry.Lib.Transition
import TkbCherry.Lib.Utf8
import TkbCherry.Lib.Words
import TkbCherry.Native.Cycles
import TkbCherry.Native.HardOk
import TkbCherry.Native.Lessons
import TkbCherry.Native.Moves
import TkbCherry.Pool.Admission
import TkbCherry.Pool.Calls
import TkbCherry.Pool.Edits
import TkbCherry.Pool.Fencing
import TkbCherry.Pool.Fifo
import TkbCherry.Pool.Isolation
import TkbCherry.Pool.LocalOnly
import TkbCherry.Pool.Model
import TkbCherry.Pool.Ops
import TkbCherry.Pool.Queue
import TkbCherry.Pool.Reclaim
import TkbCherry.Pool.SingleFlight
import TkbCherry.Pool.Tickets
import TkbCherry.Pool.Watchdog
import TkbCherry.Pool.Watched
import TkbCherry.Registry.Accounts
import TkbCherry.Registry.AuthMerge
import TkbCherry.Registry.ExpiryDays
import TkbCherry.Registry.ExpiryFields
import TkbCherry.Registry.ExpiryInstant
import TkbCherry.Registry.ExpiryParse
import TkbCherry.Registry.LoginIsolation
import TkbCherry.Registry.MergeFrame
import TkbCherry.Registry.MergeLaws
import TkbCherry.Registry.MergeRetry
import TkbCherry.Registry.MergeSections
import TkbCherry.Registry.PlanExpiry
import TkbCherry.Registry.PlanGrant
import TkbCherry.Registry.RegistryFrame
import TkbCherry.Registry.SchoolAdminMerge
import TkbCherry.Registry.Stores
import TkbCherry.Registry.Tombstones
import TkbCherry.Registry.Updates
import TkbCherry.Serverless.Dispatch
import TkbCherry.Serverless.ExecutionRuns
import TkbCherry.Serverless.ReservationRuns
import TkbCherry.Serverless.Reservations
import TkbCherry.Serverless.SolveQuota
import TkbCherry.Serverless.SolveQuotaRuns
import TkbCherry.Session.Invariant
import TkbCherry.Session.Model
import TkbCherry.Session.SingleLogin
