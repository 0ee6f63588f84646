import Gally.Library.Checked
import Gally.Library.Store
import Gally.Library.Table
import Gally.Library.Run
import Gally.Library.LazyIndex
import Gally.Contract.Move
import Gally.Contract.Event
import Gally.Contract.Protocol
import Gally.Contract.Share
import Gally.Contract.Validator
import Gally.Contract.Accumulator
import Gally.Contract.Asset
import Gally.Contract.Dispute
import Gally.Contract.Chain
import Gally.Spec.AccumulatorSpec
import Gally.Spec.AssetSpec
import Gally.Spec.DisputeSpec
import Gally.Spec.ChainSpec
import Gally.Engine.Basic
import Gally.Engine.Moves
import Gally.Engine.Solvency
import Gally.Engine.Slack
import Gally.Engine.Refinement
import Gally.Engine.Exchange
import Gally.Chain.Path
import Gally.Chain.History
import Gally.Chain.Links
import Gally.Chain.Site
import Gally.Chain.Sites
import Gally.Chain.Custody
import Gally.Chain.Touch
import Gally.Chain.Treasury
import Gally.Chain.Ceiling
import Gally.Chain.Titles
import Gally.Chain.Coverage
import Gally.Law.Yield
import Gally.Law.Exits
import Gally.Law.Closing
import Gally.Law.Lifecycle
import Gally.Law.Raise
import Gally.Law.Court
import Gally.Law.Backing
import Gally.Law.Freeze
import Gally.Law.Interval
import Gally.Law.Grace
import Gally.Law.Trial
import Gally.Law.Default
import Gally.Law.Challenge
import Gally.Law.Claimants
import Gally.Law.Books
import Gally.Law.Dust
import Gally.Law.Receipts
import Gally.Law.Docket
import Gally.Law.Ballot
import Gally.Law.Settlement
import Gally.Law.Cooldown
import Gally.Law.Rollover
import Gally.Law.Vouches
import Gally.Law.EventLog
import Gally.Library.Decimal
import Gally.Explorer.Wire
import Gally.Explorer.Position
import Gally.Law.Display
import Gally.Explorer.Ptb
import Gally.Explorer.Signature
import Gally.Law.Plans
import Gally.Library.Relation
import Gally.Library.Overwrite
import Gally.Library.Feed
import Gally.Law.Mentions
import Gally.Indexer.Record
import Gally.Indexer.Schema
import Gally.Indexer.Handlers
import Gally.Indexer.Ingestion
import Gally.Indexer.Ownership
import Gally.Law.Replays
import Gally.Law.Confluence
import Gally.Indexer.Queries
import Gally.Law.Balances
import Gally.Law.Attempts
import Gally.Law.Holdings
import Gally.Indexer.Holders
import Gally.Law.Holders
import Gally.Law.Records
import Gally.Indexer.IpAddr
import Gally.Indexer.Reputation
import Gally.Library.TokenBucket
import Gally.Indexer.Limit
import Gally.Law.Throttle
import Gally.Indexer.Cursor
import Gally.Indexer.Lists
import Gally.Law.Pages
import Gally.Law.Reputation
import Gally.Explorer.Live
import Gally.Law.Current
import Gally.Law.Terms
import Gally.Explorer.Cranks
import Gally.Law.Shown
import Gally.Law.Cranks
import Gally.Law.Solvency
import Gally.Law.Numbers
import Gally.Law.Ownership
import Gally.Law.Governance
import Gally.Law.Detours
import Gally.Simulation.Faucet
import Gally.Simulation.Reseed
import Gally.Law.Completion
import Gally.Simulation.Targets
import Gally.Library.Broadcast
import Gally.Indexer.Push
import Gally.Library.ReadThrough
import Gally.Indexer.Proxy
