import Onebox.Transition.System
import Onebox.Transition.Watermark
import Onebox.Transition.Simulation
import Onebox.Transition.Clocked
import Onebox.Transition.Journal
import Onebox.Transition.Parties
import Onebox.Python.Codecs
import Onebox.Python.Url
import Onebox.Python.Lists
import Onebox.Python.JsonText
import Onebox.Python.Digits
import Onebox.Python.Base64
import Onebox.Python.Uuid
import Onebox.Python.JsonRead
import Onebox.Python.DateTime
import Onebox.Python.Schema
import Onebox.Python.NormalText
import Onebox.Pagination.Keyset
import Onebox.Pagination.PageToken
import Onebox.Pagination.Listings
import Onebox.RequestLimits.Middleware
import Onebox.Credentials.Backfill
import Onebox.Credentials.Codec
import Onebox.Credentials.Connection
import Onebox.Credentials.Bound
import Onebox.Credentials.OAuthFlow
import Onebox.Credentials.OAuthOnce
import Onebox.Cache.MailCache
import Onebox.Paging.Reading
import Onebox.Tables.Rows
import Onebox.PendingActions.Model
import Onebox.PendingActions.Payloads
import Onebox.PendingActions.Canonical
import Onebox.PendingActions.OwnCheck
import Onebox.PendingActions.Lifecycle
import Onebox.PendingActions.AuditTrail
import Onebox.PendingActions.Handlers
import Onebox.PendingActions.Dispatch
import Onebox.PendingActions.Fence
import Onebox.PendingActions.Verdict
import Onebox.PendingActions.Requests
import Onebox.PendingActions.Reconciliation
import Onebox.PendingActions.Integrity
import Onebox.PendingActions.ActionTable
import Onebox.PendingActions.Staging
import Onebox.PendingActions.Deduplication
import Onebox.PendingActions.ProviderStore
import Onebox.PendingActions.Markers
import Onebox.Notifications.Settings
import Onebox.Notifications.Jobs
import Onebox.Notifications.Triage
import Onebox.Notifications.TriageTable
import Onebox.Notifications.TriageOnce
import Onebox.Notifications.TriagePrompt
import Onebox.Notifications.History
import Onebox.Notifications.HistoryItems
import Onebox.Notifications.HistoryCollection
import Onebox.Notifications.Worker
import Onebox.Notifications.Steps
import Onebox.Notifications.TriageRefinement
import Onebox.Notifications.Cursor
import Onebox.Notifications.Recovery
import Onebox.Notifications.Tables
import Onebox.Notifications.WatchRenewal
import Onebox.Notifications.Undisturbed
import Onebox.Notifications.WatchLease
import Onebox.Notifications.Generations
import Onebox.Notifications.MailboxRow
import Onebox.Notifications.BoundedResync
import Onebox.Notifications.ResyncBudget
import Onebox.Notifications.Refinement
import Onebox.Notifications.JobRows
import Onebox.Notifications.CoveredWork
import Onebox.Notifications.Delivery
import Onebox.Agents.Tools
import Onebox.Agents.Executive
import Onebox.Agents.Streamer
import Onebox.Agents.Authority
import Onebox.Providers.Runner
import Onebox.Providers.Conserved
import Onebox.Providers.Released
import Onebox.Providers.Retry
import Onebox.Providers.RetryPolicy
import Onebox.Forest.Zipper
import Onebox.Mail.Sanitizer
import Onebox.Mail.Markup
import Onebox.Mail.Mime
import Onebox.Mail.BodyBound
import Onebox.Forest.Preorder
import Onebox.Mail.Extraction
import Onebox.Mail.Inbound
import Onebox.Mail.Walks
import Onebox.Mail.Message
import Onebox.Mail.MessagePage
import Onebox.Mail.CompletePage
import Onebox.Retention.Cleanup
import Onebox.Retention.Stamped
import Onebox.Retention.Sweep
import Onebox.Retention.OldRecords
import Onebox.Retention.Reachable
import Onebox.Streams.Answers
import Onebox.Streams.EventSource
import Onebox.Agents.ClientStream
import Onebox.Providers.StreamBridge
import Onebox.Providers.NoTruncation
import Onebox.Agents.EventStream
import Onebox.Agents.EventGrammar
import Onebox.Transition.Unwinding
import Onebox.PendingActions.OwnerRequests
import Onebox.PendingActions.Isolation
import Onebox.Python.JsonWrite
import Onebox.Python.JsonBytes
import Onebox.Notifications.Envelope
import Onebox.Notifications.Progress
import Onebox.Notifications.WorkerLoop
import Onebox.Notifications.LoopMoves
import Onebox.Notifications.LoopRuns
import Onebox.Notifications.LoopService
import Onebox.Notifications.PushRequests
import Onebox.Notifications.Acknowledged
import Onebox.Notifications.Health
