import WorkPlatform.Machinery.Run
import WorkPlatform.Machinery.Acyclic
import WorkPlatform.Machinery.Delimited
import WorkPlatform.Machinery.Generations
import WorkPlatform.Machinery.Tally
import WorkPlatform.Machinery.Table
import WorkPlatform.Machinery.Json
import WorkPlatform.Machinery.Paging
import WorkPlatform.Machinery.Forest
import WorkPlatform.Machinery.Window
import WorkPlatform.Machinery.Volatile
import WorkPlatform.Machinery.Noninterference
import WorkPlatform.Machinery.Growing
import WorkPlatform.Task.Template
import WorkPlatform.Task.ActivityLog
import WorkPlatform.Shared.AppError
import WorkPlatform.Task.Dependency
import WorkPlatform.Task.DependencyRace
import WorkPlatform.Task.Edit
import WorkPlatform.Task.Version
import WorkPlatform.Task.Transition
import WorkPlatform.Task.Create
import WorkPlatform.Task.Forest
import WorkPlatform.Task.Orphan
import WorkPlatform.Task.Assignees
import WorkPlatform.Task.Atomic
import WorkPlatform.Task.Recurring
import WorkPlatform.Task.Comment
import WorkPlatform.Task.Reply
import WorkPlatform.Chat.Channel
import WorkPlatform.Chat.Message
import WorkPlatform.Chat.Sequence
import WorkPlatform.Chat.Sync
import WorkPlatform.Chat.Dedup
import WorkPlatform.Chat.Thread
import WorkPlatform.Chat.Tenant
import WorkPlatform.Chat.Transaction
import WorkPlatform.Chat.Direct
import WorkPlatform.Realtime.Rooms
import WorkPlatform.Realtime.CommentEvents
import WorkPlatform.Realtime.Reconnect
import WorkPlatform.Realtime.ChatEvents
import WorkPlatform.Realtime.Calls
import WorkPlatform.Realtime.Places
import WorkPlatform.Realtime.Delivery
import WorkPlatform.Realtime.CallState
import WorkPlatform.Outbox.Poller
import WorkPlatform.Outbox.Delivery
import WorkPlatform.Outbox.Duplicates
import WorkPlatform.Outbox.Backlog
import WorkPlatform.Tenant.References
import WorkPlatform.Idempotency.Key
import WorkPlatform.Idempotency.Store
import WorkPlatform.Idempotency.Once
import WorkPlatform.Idempotency.Expiry
import WorkPlatform.Idempotency.Replayed
import WorkPlatform.Auth.Store
import WorkPlatform.Auth.Calls
import WorkPlatform.Auth.Carriers
import WorkPlatform.Auth.Rotation
import WorkPlatform.Auth.Family
import WorkPlatform.Auth.Reuse
import WorkPlatform.Auth.Blacklist
import WorkPlatform.Auth.PasswordReset
import WorkPlatform.Auth.OneTime
import WorkPlatform.Auth.BackupCodes
import WorkPlatform.Auth.Login
import WorkPlatform.Auth.Lockout
import WorkPlatform.Payment.Store
import WorkPlatform.Payment.Calls
import WorkPlatform.Payment.OrgStatus
import WorkPlatform.Payment.Status
import WorkPlatform.Payment.Purchase
import WorkPlatform.Payment.Upgrade
import WorkPlatform.Payment.Webhook
import WorkPlatform.Payment.Redelivery
import WorkPlatform.Payment.Grace
import WorkPlatform.Payment.GraceStart
import WorkPlatform.Payment.Order
import WorkPlatform.Payment.Signature
import WorkPlatform.Organization.Store
import WorkPlatform.Organization.Calls
import WorkPlatform.Organization.Members
import WorkPlatform.Organization.Owner
import WorkPlatform.Organization.Granted
import WorkPlatform.Organization.MemberLimit
import WorkPlatform.Organization.Invitation
import WorkPlatform.Session.Calls
import WorkPlatform.Session.Standing
import WorkPlatform.Session.Authenticated
import WorkPlatform.Session.Google
import WorkPlatform.Auth.RequestUser
import WorkPlatform.Auth.AdminGate
import WorkPlatform.Realtime.SocketSession
import WorkPlatform.Session.Status
import WorkPlatform.Session.Replay
import WorkPlatform.File.Store
import WorkPlatform.File.Calls
import WorkPlatform.File.Quota
import WorkPlatform.File.Usage
import WorkPlatform.File.Download
import WorkPlatform.File.Cleanup
import WorkPlatform.RateLimit.Pipeline
import WorkPlatform.RateLimit.Window
import WorkPlatform.RateLimit.CheckLimit
import WorkPlatform.RateLimit.CheckRateLimit
import WorkPlatform.RateLimit.Fallback
import WorkPlatform.Realtime.Presence
import WorkPlatform.FeatureFlag.Calls
import WorkPlatform.FeatureFlag.Settled
import WorkPlatform.Notification.Store
import WorkPlatform.Notification.Create
import WorkPlatform.Notification.Digest
import WorkPlatform.Notification.Queues
import WorkPlatform.Gdpr.Store
import WorkPlatform.Gdpr.Jobs
import WorkPlatform.Gdpr.WaitingPeriod
import WorkPlatform.Gdpr.Isolation
import WorkPlatform.Gdpr.Erasure
import WorkPlatform.Webhook.Delivery
import WorkPlatform.Webhook.Ssrf
import WorkPlatform.Gdpr.Export
import WorkPlatform.Gdpr.Redaction
import WorkPlatform.Machinery.Optimistic
import WorkPlatform.Frontend.Rollback
import WorkPlatform.Frontend.AuthService
import WorkPlatform.Frontend.Refresh
import WorkPlatform.Auth.TokenEvents
import WorkPlatform.Workspace.Update
import WorkPlatform.Machinery.Serial
import WorkPlatform.Machinery.Provenance
import WorkPlatform.Workspace.Versions
import WorkPlatform.Machinery.Transaction
import WorkPlatform.Organization.CreateOrg
import WorkPlatform.Machinery.Calendar
import WorkPlatform.Shared.Date
import WorkPlatform.Cleanup.Partitions
import WorkPlatform.Cleanup.Retention
import WorkPlatform.Http.Routes
import WorkPlatform.Http.Suspended
import WorkPlatform.Http.Services
import WorkPlatform.Http.Spared
import WorkPlatform.Http.Guest
import WorkPlatform.Machinery.Search
import WorkPlatform.Task.Cycle
import WorkPlatform.Machinery.Recursive
import WorkPlatform.Task.Cascade
import WorkPlatform.Machinery.Keyset
import WorkPlatform.Chat.History
import WorkPlatform.Machinery.Merge
import WorkPlatform.Search.PostgresFts
import WorkPlatform.Machinery.Gather
import WorkPlatform.Search.Typesense
import WorkPlatform.Search.Service
import WorkPlatform.Machinery.Replay
import WorkPlatform.Search.Worker
import WorkPlatform.Machinery.Patch
import WorkPlatform.Notification.Preferences
import WorkPlatform.Realtime.AckRetry
import WorkPlatform.Machinery.Locks
import WorkPlatform.File.Upload
import WorkPlatform.Machinery.Uuid
import WorkPlatform.Chat.PairOrder
import WorkPlatform.Task.List
import WorkPlatform.Task.Completed
import WorkPlatform.Machinery.Regex
import WorkPlatform.Machinery.Replace
import WorkPlatform.Notification.PlainText
import WorkPlatform.Machinery.Distinct
import WorkPlatform.Task.Mention
import WorkPlatform.Task.Mentioned
import WorkPlatform.Machinery.JsonTree
import WorkPlatform.Shared.LogSanitiser
import WorkPlatform.Search.SearchText
import WorkPlatform.Machinery.Base64
import WorkPlatform.Shared.Crypto
import WorkPlatform.Machinery.Url
import WorkPlatform.Webhook.TargetUrl
import WorkPlatform.Webhook.Registration
import WorkPlatform.Webhook.Secrets
import WorkPlatform.Tenant.Isolation
