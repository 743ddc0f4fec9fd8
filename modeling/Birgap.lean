import Birgap.Lib.Run
import Birgap.Lib.Rows
import Birgap.Lib.Tx
import Birgap.Lib.Sequence
import Birgap.Lib.JobQueue
import Birgap.Lib.Paging
import Birgap.Lib.Locks
import Birgap.Lib.Clients
import Birgap.Lib.Agree
import Birgap.Lib.FixedWindow
import Birgap.Lib.ExpiringSets
import Birgap.Lib.Batch
import Birgap.Lib.Polling
import Birgap.Lib.NullKeys
import Birgap.Lib.Evolution
import Birgap.Lib.Walk
import Birgap.Common.Uuid
import Birgap.Auth.Expiry
import Birgap.Auth.Lockout
import Birgap.Auth.Attempts
import Birgap.Auth.Acceptance
import Birgap.Auth.Guard
import Birgap.Auth.Accounts
import Birgap.Auth.Resend
import Birgap.Auth.Comparison
import Birgap.Users.Service
import Birgap.Users.Usernames
import Birgap.Users.PhoneHash
import Birgap.Users.Contacts
import Birgap.Realtime.Tickets
import Birgap.Realtime.Pruning
import Birgap.Realtime.Presence
import Birgap.Realtime.StaleSockets
import Birgap.Realtime.EditEvents
import Birgap.Realtime.Gateway
import Birgap.Realtime.Kicks
import Birgap.Realtime.Exile
import Birgap.Moderation.Agreement
import Birgap.Moderation.Reports
import Birgap.Moderation.Closing
import Birgap.Moderation.Audited
import Birgap.Moderation.Queue
import Birgap.Moderation.Roles
import Birgap.Moderation.Strikes
import Birgap.Moderation.RateLimits
import Birgap.Moderation.Effects
import Birgap.Moderation.Rollup
import Birgap.Moderation.Resolved
import Birgap.Moderation.AuditLog
import Birgap.Moderation.Backfill
import Birgap.Moderation.Collusion
import Birgap.Moderation.Provenance
import Birgap.Moderation.RoleSessions
import Birgap.Devices.Cap
import Birgap.Keys.OneTime
import Birgap.Keys.Identity
import Birgap.Keys.Bundles
import Birgap.Backups.Current
import Birgap.Backups.Retention
import Birgap.Messages.Sequence
import Birgap.Messages.Delivery
import Birgap.Messages.Delete
import Birgap.Messages.Sync
import Birgap.Messages.Pending
import Birgap.Messages.Access
import Birgap.Messages.Cleanup
import Birgap.Messages.EditKeys
import Birgap.Messages.History
import Birgap.Messages.Admission
import Birgap.Messages.ForwardSend
import Birgap.Messages.DerivedKeys
import Birgap.Messages.Scrolling
import Birgap.Messages.Stamps
import Birgap.Reactions.Service
import Birgap.Reactions.Replay
import Birgap.Reactions.Freshness
import Birgap.Unread.Recalc
import Birgap.Groups.Accepted
import Birgap.Groups.Repeats
import Birgap.Groups.Convergence
import Birgap.Groups.MemberCache
import Birgap.Groups.Union
import Birgap.Groups.EditChunks
import Birgap.Groups.Governance
import Birgap.Messaging.Numbering
import Birgap.Messaging.Replies
import Birgap.Messaging.Idempotency
import Birgap.Messaging.Senders
import Birgap.Messaging.Replay
import Birgap.Messaging.Routing
import Birgap.Messaging.Refinement
import Birgap.Messaging.Attachments
import Birgap.Messaging.Access
import Birgap.Messaging.Objects
import Birgap.Messaging.Reclaim
import Birgap.Messaging.LiveObjects
import Birgap.Messaging.Tombstones
import Birgap.Messaging.LateEdits
import Birgap.Messaging.Locked
import Birgap.Messaging.Races
import Birgap.Messaging.GroupRaces
import Birgap.Messaging.GroupProgress
import Birgap.Messaging.RetryRaces
import Birgap.Messaging.RetryProgress
import Birgap.Messaging.ForwardAgain
import Birgap.Messaging.Requests
import Birgap.Messaging.ForwardKeys
import Birgap.Messaging.Announcements
import Birgap.Messaging.MediaRows
import Birgap.Messaging.OrphanSweep
import Birgap.Storage.Keys
import Birgap.DirectThreads.List
import Birgap.Push.Delivery
import Birgap.Telegram.Bot
import Birgap.Telegram.Delivery
import Birgap.Messaging.Authorship
import Birgap.Moderation.Series
import Birgap.Realtime.Feed
import Birgap.Realtime.Offline
