import Stoppage.Chain.Execution
import Stoppage.Lib.PariMutuel
import Stoppage.Chain.Ledger
import Stoppage.Programs.MarketSpec
import Stoppage.Programs.SettlementSpec
import Stoppage.Instance.Change
import Stoppage.Instance.Pool
import Stoppage.Receipt.Provenance
import Stoppage.Instance.Lifecycle
import Stoppage.Instance.Solvency
import Stoppage.Instance.Conservation
import Stoppage.Receipt.Bundle
import Stoppage.Oracle.PriceBinding
import Stoppage.Oracle.AttestationAuthority
import Stoppage.Instance.Unwind
import Stoppage.Session.Limits
import Stoppage.Lib.Access
import Stoppage.Oracle.AttestationBinding
import Stoppage.Lib.Series
import Stoppage.Oracle.PriceHistory
import Stoppage.Oracle.PriceUpdate
import Stoppage.Oracle.ResolutionEvent
import Stoppage.Agent.State
import Stoppage.Agent.Actions
import Stoppage.Agent.Loop
import Stoppage.Agent.Turns
import Stoppage.Agent.Tracked
import Stoppage.Agent.Tracking
import Stoppage.Agent.SingleEntry
import Stoppage.Agent.OwnTerms
import Stoppage.Agent.GiveUp
import Stoppage.Lib.Borsh
import Stoppage.Programs.Entrypoint
import Stoppage.Sdk.Buffers
import Stoppage.Sdk.Instructions
import Stoppage.Sdk.Oracle
import Stoppage.Agent.AttestationKeeper
import Stoppage.Oracle.Lockstep
import Stoppage.Agent.Writes
import Stoppage.Agent.Replays
import Stoppage.Lib.Hex
import Stoppage.Programs.ValidateStat
import Stoppage.Sdk.Txline
import Stoppage.Sdk.Pyth
import Stoppage.Agent.Settle
import Stoppage.Receipt.Resume
import Stoppage.Instance.Allocation
import Stoppage.Lib.Utf8
import Stoppage.Lib.Utf16
import Stoppage.Lib.Padding
import Stoppage.Lib.Double
import Stoppage.Programs.MarketEntry
import Stoppage.Sdk.Escrow
import Stoppage.Sdk.Identity
import Stoppage.Sdk.ParseMarket
import Stoppage.Sdk.ParseExact
import Stoppage.Lib.Decimal
import Stoppage.Sdk.Normalizer
import Stoppage.Sdk.RoundTrip
import Stoppage.Lib.Delimited
import Stoppage.Sdk.Quote
import Stoppage.Lib.Json
import Stoppage.Quant.Snapshot
import Stoppage.Quant.Model
import Stoppage.Quant.Recompute
import Stoppage.Oracle.Digest
import Stoppage.Lib.Base64
import Stoppage.Web.BettingGate
import Stoppage.Web.ProofRoute
import Stoppage.Lib.HashChain
import Stoppage.Sdk.Proofs
import Stoppage.Agent.Feed
import Stoppage.Agent.MatchLifecycle
import Stoppage.Agent.QuotedState
import Stoppage.Agent.FinalOutcome
import Stoppage.Agent.Attestations
import Stoppage.Agent.Calibration
import Stoppage.Web.SessionKey
import Stoppage.Web.SessionSecret
import Stoppage.Web.Redelegation
import Stoppage.Lib.Sampling
import Stoppage.Keeper.Coinbase
import Stoppage.Keeper.Price
import Stoppage.Keeper.Probe
import Stoppage.Keeper.Candle
import Stoppage.Keeper.Rounds
import Stoppage.Keeper.Adoption
import Stoppage.Keeper.Week
import Stoppage.Keeper.Recovery
import Stoppage.Keeper.Failures
import Stoppage.Lib.NumberText
import Stoppage.Lib.Polling
import Stoppage.Agent.SportsDb
import Stoppage.Agent.AttestationRun
import Stoppage.Agent.MissingCounts
import Stoppage.Agent.ObservationWindow
import Stoppage.Lib.Clamp
import Stoppage.Quant.MakerQuote
import Stoppage.Agent.FootballScores
import Stoppage.Agent.SettlePacking
import Stoppage.Lib.MerkleTree
import Stoppage.Sdk.MerklePath
import Stoppage.Lib.JsonRead
import Stoppage.Lib.Latest
import Stoppage.Agent.EventLedger
import Stoppage.Lib.Calendar
import Stoppage.Keeper.WeekWindow
import Stoppage.Web.SettledWeek
import Stoppage.Lib.AtomicBatch
import Stoppage.Keeper.BondSweep
import Stoppage.Scripts.Housekeep
import Stoppage.Web.LaunchMarket
import Stoppage.Lib.Framing
import Stoppage.Lib.TextDecoder
import Stoppage.Sdk.Sse
import Stoppage.Agent.Restart
import Stoppage.Sdk.Codecs
import Stoppage.Sdk.LegacyMarket
import Stoppage.Lib.Histogram
import Stoppage.Quant.Backtest
import Stoppage.Lib.Throttle
import Stoppage.Agent.OddsTracker
import Stoppage.Web.ClaimRecord
import Stoppage.Lib.EventSourcing
import Stoppage.Chain.Observer
import Stoppage.Instance.EventLog
import Stoppage.Instance.Books
import Stoppage.Lib.Canonical
import Stoppage.Programs.Handler
import Stoppage.Programs.Dispatch
import Stoppage.Sdk.Calls
import Stoppage.Web.HeliusMonitor
import Stoppage.Sdk.SseConnection
import Stoppage.Lib.Footprint
import Stoppage.Chain.Graft
import Stoppage.Programs.Locks
import Stoppage.Lib.LastWrite
import Stoppage.Agent.QuoteTracker
import Stoppage.Web.QuoteStream
import Stoppage.Lib.Visits
import Stoppage.Keeper.ClaimSweep
