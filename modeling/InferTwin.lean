import InferTwin.Cache.BlockSize
import InferTwin.Cache.CacheBlockConversion
import InferTwin.Cache.CachedTokenAccounting
import InferTwin.Cache.EventLog
import InferTwin.Cache.EventSink
import InferTwin.Cache.Eviction
import InferTwin.Cache.Interface
import InferTwin.Cache.LruContents
import InferTwin.Cache.LruTier
import InferTwin.Cache.Materialization
import InferTwin.Cache.Repository
import InferTwin.Cache.Residents
import InferTwin.Cache.Serving
import InferTwin.Cache.Tiered
import InferTwin.Config.Deployment
import InferTwin.Config.Guard
import InferTwin.Config.Instances
import InferTwin.Config.ModelBinding
import InferTwin.Config.ModelRegistry
import InferTwin.Config.ModelRuntime
import InferTwin.Config.Parsers
import InferTwin.Config.Profiles
import InferTwin.Errors
import InferTwin.Experiment.Sweep
import InferTwin.Experiment.SweepConfig
import InferTwin.Experiment.SweepRunner
import InferTwin.External.KvLoadCalibration
import InferTwin.Foundation.Bytes
import InferTwin.Foundation.Dict
import InferTwin.Foundation.Effect
import InferTwin.Foundation.EventLog
import InferTwin.Foundation.Group
import InferTwin.Foundation.HashChain
import InferTwin.Foundation.Json
import InferTwin.Foundation.LeastSquares
import InferTwin.Foundation.Lindley
import InferTwin.Foundation.Lru
import InferTwin.Foundation.Rank
import InferTwin.Foundation.Recall
import InferTwin.Foundation.Sha256
import InferTwin.Foundation.StableSort
import InferTwin.Foundation.Text
import InferTwin.Instance.Replay
import InferTwin.Latency.Answers
import InferTwin.Latency.Attribution
import InferTwin.Latency.Backends
import InferTwin.Latency.Factory
import InferTwin.Latency.InstanceResolver
import InferTwin.Latency.KvLoad
import InferTwin.Latency.Memo
import InferTwin.Latency.Resolution
import InferTwin.Latency.Schema
import InferTwin.Latency.Transparency
import InferTwin.Properties.Accounting
import InferTwin.Properties.Accounts
import InferTwin.Properties.Aggregation
import InferTwin.Properties.CacheContents
import InferTwin.Properties.CacheLog
import InferTwin.Properties.CacheStats
import InferTwin.Properties.Calibration
import InferTwin.Properties.CapacityReport
import InferTwin.Properties.Codec
import InferTwin.Properties.Completion
import InferTwin.Properties.Conservation
import InferTwin.Properties.Duplicates
import InferTwin.Properties.Fcfs
import InferTwin.Properties.FrontierPlan
import InferTwin.Properties.IdealReplay
import InferTwin.Properties.Isolation
import InferTwin.Properties.Link
import InferTwin.Properties.Memoization
import InferTwin.Properties.Percentile
import InferTwin.Properties.PhantomHits
import InferTwin.Properties.PrefixKeys
import InferTwin.Properties.ProgressiveBlocks
import InferTwin.Properties.ReplayAlone
import InferTwin.Properties.Reported
import InferTwin.Properties.RequestBuild
import InferTwin.Properties.Returns
import InferTwin.Properties.Shards
import InferTwin.Properties.SharedMemo
import InferTwin.Properties.StackProperty
import InferTwin.Properties.Streaming
import InferTwin.Properties.SweepAgreement
import InferTwin.Properties.SweepInstances
import InferTwin.Properties.SweepReturns
import InferTwin.Properties.SweepRows
import InferTwin.Properties.SweepRuns
import InferTwin.Properties.SweepTokenized
import InferTwin.Properties.SweepTotals
import InferTwin.Properties.SweepTrace
import InferTwin.Properties.TraceNormalization
import InferTwin.Properties.TransferQueue
import InferTwin.Properties.Ttft
import InferTwin.Properties.WaitingQueue
import InferTwin.Refinement.Arrivals
import InferTwin.Refinement.Frontier
import InferTwin.Refinement.Held
import InferTwin.Refinement.Iteration
import InferTwin.Refinement.ListReplay
import InferTwin.Refinement.Reachable
import InferTwin.Refinement.Schedule
import InferTwin.Refinement.Sinks
import InferTwin.Refinement.StreamReplay
import InferTwin.Replay.Engine
import InferTwin.Replay.Estimates
import InferTwin.Replay.EventLoop
import InferTwin.Replay.KvTransfer
import InferTwin.Replay.Metrics
import InferTwin.Replay.Run
import InferTwin.Replay.Ttft
import InferTwin.Replay.Unmemoized
import InferTwin.Report.CacheEvents
import InferTwin.Report.Summary
import InferTwin.Request.BlockHasher
import InferTwin.Request.BlockKeys
import InferTwin.Request.BuildContext
import InferTwin.Request.Built
import InferTwin.Request.KeyEncoding
import InferTwin.Request.SimulationRequest
import InferTwin.Request.Tiling
import InferTwin.Request.Tokenizers
import InferTwin.Sample
import InferTwin.Scheduler.BatchShape
import InferTwin.Scheduler.Queue
import InferTwin.Scheduler.RequestState
import InferTwin.Scheduler.VllmLike
import InferTwin.Server.Batch
import InferTwin.Server.Booked
import InferTwin.Server.Failure
import InferTwin.Server.Fcfs
import InferTwin.Server.History
import InferTwin.Server.Invariant
import InferTwin.Server.Kept
import InferTwin.Server.Ledger
import InferTwin.Server.Lookups
import InferTwin.Server.Outcome
import InferTwin.Server.Pass
import InferTwin.Server.Progress
import InferTwin.Server.Provenance
import InferTwin.Server.Run
import InferTwin.Server.Scan
import InferTwin.Server.Session
import InferTwin.Server.Slice
import InferTwin.Server.Stages
import InferTwin.Server.Termination
import InferTwin.Server.Timeline
import InferTwin.Server.WorkConserving
import InferTwin.Streaming.Build
import InferTwin.Streaming.BuildResolver
import InferTwin.Streaming.CacheFactory
import InferTwin.Streaming.JsonlSource
import InferTwin.Streaming.Metrics
import InferTwin.Streaming.Replay
import InferTwin.Streaming.RequestCodec
import InferTwin.Streaming.ShardContents
import InferTwin.Streaming.ShardStore
import InferTwin.Streaming.Source
import InferTwin.Streaming.SweepRunner
import InferTwin.Tables.Balance
import InferTwin.Tables.Books
import InferTwin.Tables.Displaced
import InferTwin.Tables.Frontier
import InferTwin.Tables.Iteration
import InferTwin.Tables.ListBooks
import InferTwin.Tables.ListRun
import InferTwin.Tables.Moves
import InferTwin.Tables.Queued
import InferTwin.Tables.Registered
import InferTwin.Tables.Reports
import InferTwin.Tables.Run
import InferTwin.Tables.Slices
import InferTwin.Tables.StreamRun
import InferTwin.Tables.Tag
import InferTwin.Tables.Turns
import InferTwin.Trace.Normalizer
import InferTwin.Trace.Reader
