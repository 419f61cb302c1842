import WolfNas.Lib.Text
import WolfNas.Lib.Path
import WolfNas.Lib.Table
import WolfNas.Lib.Dict
import WolfNas.Lib.Run
import WolfNas.Lib.SortedSet
import WolfNas.Lib.Capped
import WolfNas.Lib.FormatText
import WolfNas.Lib.FileStore
import WolfNas.Lib.FileFrame
import WolfNas.Media.Ref
import WolfNas.Media.EpisodeText
import WolfNas.Media.EpisodeReaders
import WolfNas.Media.KeySource
import WolfNas.Subscribe.Rows
import WolfNas.Subscribe.Matcher
import WolfNas.Subscribe.RssFeed
import WolfNas.Subscribe.LackList
import WolfNas.Subscribe.RssDedup
import WolfNas.Series.Service
import WolfNas.Series.Keys
import WolfNas.Transfer.Engine
import WolfNas.Transfer.Effect
import WolfNas.Transfer.Library
import WolfNas.Transfer.Duplicate
import WolfNas.Transfer.Overwrite
import WolfNas.Transfer.Arrival
import WolfNas.Transfer.Directory
import WolfNas.Transfer.Placing
import WolfNas.Transfer.Loop
import WolfNas.Transfer.Truthful
import WolfNas.Transfer.Pipeline
import WolfNas.Transfer.Existence
import WolfNas.Transfer.Cleanup
import WolfNas.Transfer.CleanupSafe
import WolfNas.Subscribe.Check
import WolfNas.Subscribe.Intersect
import WolfNas.Transfer.Deletion
import WolfNas.Transfer.NameFormat
import WolfNas.Transfer.FormatPasses
import WolfNas.Retention.Sweep
import WolfNas.Retention.Lawful
import WolfNas.Scrape.Delivery
import WolfNas.Transfer.Identify
import WolfNas.Transfer.Assign
import WolfNas.Download.Batch
import WolfNas.Download.Offers
import WolfNas.Subscribe.RssRound
import WolfNas.Subscribe.NothingMissing
import WolfNas.Subscribe.HandledItems
import WolfNas.Transfer.DestInside
import WolfNas.Lifecycle.Projection
import WolfNas.Lifecycle.Replay
import WolfNas.Subscribe.TvProgress
import WolfNas.Subscribe.Siblings
import WolfNas.Subscribe.TransferAccount
import WolfNas.Download.Offset
import WolfNas.Download.Rollback
import WolfNas.Subscribe.ProgressRace
import WolfNas.Brush.Removal
import WolfNas.Brush.Deletions
import WolfNas.Lib.Observed
import WolfNas.Brush.Totals
import WolfNas.Lib.Program
import WolfNas.Lib.FileTree
import WolfNas.Rename.Storage
import WolfNas.Rename.Executor
import WolfNas.Rename.Contents
import WolfNas.Queue.Memory
import WolfNas.Lib.Process
import WolfNas.Queue.Redis
import WolfNas.Queue.Stream
import WolfNas.Queue.Dedup
import WolfNas.Queue.Lease
import WolfNas.Queue.Revival
import WolfNas.Lock.Stores
import WolfNas.Lock.Manager
import WolfNas.Lock.Coordinator
import WolfNas.Cache.Adapters
import WolfNas.Cache.Expiry
import WolfNas.Cache.Outage
import WolfNas.Request.Deduper
import WolfNas.Rename.Cancel
import WolfNas.Lib.Hop
import WolfNas.Lib.TokenBucket
import WolfNas.Lib.Window
import WolfNas.Lib.Rotation
import WolfNas.Limit.Backends
import WolfNas.Limit.SiteSpacing
import WolfNas.Limit.Allowed
import WolfNas.Limit.Semaphores
import WolfNas.Limit.Leases
import WolfNas.Subscribe.BatchCursor
import WolfNas.Subscribe.Tenancy
import WolfNas.Lib.StableSort
import WolfNas.Filter.Rules
import WolfNas.Filter.Pipelines
import WolfNas.Search.Identify
import WolfNas.Search.Independence
import WolfNas.Identity.Index
import WolfNas.Identity.Resolver
import WolfNas.Identity.Namespaces
import WolfNas.Identity.FanAliases
import WolfNas.Identity.Franchise
import WolfNas.Lib.Firsts
import WolfNas.Metadata.Composer
import WolfNas.Metadata.Ownership
import WolfNas.Metadata.Orders
import WolfNas.Metadata.Registry
import WolfNas.Metadata.Staleness
import WolfNas.Lib.Numbering
import WolfNas.Mapping.Mapper
import WolfNas.Mapping.Queries
import WolfNas.Mapping.Absolute
import WolfNas.Mapping.Chronology
import WolfNas.Mapping.Invalidate
import WolfNas.Limit.BucketsAgree
import WolfNas.Brush.Adding
import WolfNas.Brush.Unfinished
import WolfNas.Brush.SiteLinks
import WolfNas.Brush.Handled
import WolfNas.Lifecycle.Grouped
import WolfNas.Lifecycle.Filtering
import WolfNas.Transfer.Subtitles
import WolfNas.Subscribe.DownloadGuard
import WolfNas.Transfer.Marks
import WolfNas.Schedule.Retries
import WolfNas.Download.Conservation
import WolfNas.Download.Precheck
import WolfNas.Download.Ranges
import WolfNas.Download.PackCover
import WolfNas.Download.Films
import WolfNas.Download.Unresolved
import WolfNas.Subscribe.Intersection
import WolfNas.Lib.DecimalOrder
import WolfNas.Download.Ranking
import WolfNas.Lib.Keyed
import WolfNas.Subscribe.SubscribeHistory
import WolfNas.Subscribe.Finish
import WolfNas.Subscribe.WriteBack
import WolfNas.Subscribe.States
import WolfNas.Brush.RangeRule
import WolfNas.Lib.FirstFound
import WolfNas.Brush.SelectRules
import WolfNas.Brush.RemoveRules
import WolfNas.Brush.TorrentPage
import WolfNas.Brush.StopRules
import WolfNas.Filter.Verdicts
import WolfNas.Queue.Resubmit
import WolfNas.Subscribe.Lookup
import WolfNas.Subscribe.SeasonSpellings
import WolfNas.Subscribe.PendingRounds
import WolfNas.Lifecycle.Summaries
import WolfNas.Rename.RoundTrip
import WolfNas.Rename.Planner
import WolfNas.Brush.DailyLimit
import WolfNas.Words.EpisodeOffset
import WolfNas.Words.Processor
import WolfNas.Lib.LetterCase
import WolfNas.Media.Spellings
import WolfNas.Limit.RateStrings
import WolfNas.Lib.LeastRecent
import WolfNas.Lock.Leases
import WolfNas.Lib.Binary64
import WolfNas.Lib.BreadthFirst
import WolfNas.Lib.Numerals
import WolfNas.Queue.Hash
import WolfNas.Lib.PriorityLine
import WolfNas.Queue.Turns
import WolfNas.Message.SplitText
import WolfNas.Rename.Ownership
import WolfNas.Rename.Claims
import WolfNas.Rename.Undoing
import WolfNas.Rename.Failures
import WolfNas.Menu.Runs
