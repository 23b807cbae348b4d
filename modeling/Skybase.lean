import Skybase.Transition.Core
import Skybase.Transition.Simulation
import Skybase.Register.Core
import Skybase.Register.Replay
import Skybase.Register.Retrace
import Skybase.Replay.Core
import Skybase.Replay.Redelivery
import Skybase.Feed.Core
import Skybase.Feed.Selection
import Skybase.Feed.Channel
import Skybase.Form.Core
import Skybase.Form.Parameters
import Skybase.Calendar.Core
import Skybase.Checked.Core
import Skybase.Span.Core
import Skybase.Like.Core
import Skybase.Digits.Core
import Skybase.Template.Core
import Skybase.Auth.Core
import Skybase.Binary64.Core
import Skybase.Paging.Core
import Skybase.Paging.Cursors
import Skybase.Paging.Keyset
import Skybase.Json.Shape
import Skybase.Json.Compact
import Skybase.Json.Trees
import Skybase.Json.Serde
import Skybase.Json.Rebuilt
import Skybase.Index.Store
import Skybase.Index.Refinement
import Skybase.Index.Announcement
import Skybase.Index.Batch
import Skybase.Index.Calls
import Skybase.Index.Convergence
import Skybase.Index.Mirror
import Skybase.Index.Publication
import Skybase.Index.Sequence
import Skybase.Index.Atomicity
import Skybase.Index.Uri
import Skybase.Index.Query
import Skybase.Index.LiveQuery
import Skybase.Index.LiveBatches
import Skybase.Index.Lagging
import Skybase.Index.BuildSql
import Skybase.Index.Parameters
import Skybase.Index.Json1
import Skybase.Index.Comparison
import Skybase.Index.Complement
import Skybase.Index.Contains
import Skybase.Index.JsonPath
import Skybase.Index.Pagination
import Skybase.Index.Hydration
import Skybase.Index.Bulk
import Skybase.Repo.Types
import Skybase.Repo.Tid
import Skybase.Repo.TidGenerator
import Skybase.Repo.Client
import Skybase.Repo.NonceRetry
import Skybase.Repo.Records
import Skybase.Repo.Writes
import Skybase.Repo.SharedNonces
import Skybase.Repo.AtUri
import Skybase.Repo.Challenge
import Skybase.Lexicon.Facet
import Skybase.Lexicon.Records
import Skybase.Lexicon.RoundTrip
import Skybase.Lexicon.SelfLabels
import Skybase.Lexicon.LinkFacets
import Skybase.Lexicon.Timestamp
import Skybase.Ingest.Cursor
import Skybase.Ingest.Backoff
import Skybase.Ingest.Events
import Skybase.Ingest.Frames
import Skybase.Ingest.Consumer
import Skybase.Ingest.Sync
import Skybase.Ingest.Batching
import Skybase.Ingest.Counters
import Skybase.Ingest.Identity
import Skybase.Ingest.Filing
import Skybase.Ingest.Shutdown
import Skybase.Ingest.Subscription
import Skybase.Ingest.UrlParameters
import Skybase.Ingest.EdgeFilter
import Skybase.Ingest.Streamer
import Skybase.Ingest.Persistence
import Skybase.Ingest.Ledger
import Skybase.Ingest.System
import Skybase.Ingest.Watermark
import Skybase.Ingest.Reapplication
import Skybase.Ingest.Delivery
import Skybase.Ingest.Restart
import Skybase.Ingest.Resumption
import Skybase.Ingest.Reader
import Skybase.Ingest.ReaderRefinement
import Skybase.Ingest.ReaderAccount
import Skybase.Ingest.LiveQueries
import Skybase.Ingest.Admission
import Skybase.Ingest.Mock
import Skybase.Chat.Client
import Skybase.Chat.Session
import Skybase.Chat.Recovery
import Skybase.Chat.Queries
import Skybase.Chat.Renewal
import Skybase.Chat.Messages
import Skybase.Chat.Pages
import Skybase.AppView.FollowRecords
import Skybase.AppView.Follows
