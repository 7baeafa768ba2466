import Telemax.Lib.Run
import Telemax.Lib.Table
import Telemax.Lib.Unique
import Telemax.Lib.Script
import Telemax.Lib.Typestate
import Telemax.Lib.Rely
import Telemax.Storage.Models
import Telemax.Telegram.Errors
import Telemax.MaxClient.MaxErrors
import Telemax.MaxClient.Client
import Telemax.MaxClient.Boundary
import Telemax.Storage.Outbox
import Telemax.Routing.Settlement
import Telemax.Queue.Attempt
import Telemax.Routing.Evidence
import Telemax.Queue.System
import Telemax.Queue.Steps
import Telemax.Queue.Invariants
import Telemax.Queue.NoDoubleSend
import Telemax.Queue.Holding
import Telemax.Queue.Order
import Telemax.Queue.SendMark
import Telemax.Queue.Retried
import Telemax.Queue.Payloads
import Telemax.Routing.Keys
import Telemax.Routing.TextChunks
import Telemax.Routing.MaxTextParts
import Telemax.Storage.MessageMap
import Telemax.Storage.AlbumSettlement
import Telemax.Storage.Database
import Telemax.Bridge.System
import Telemax.Bridge.Steps
import Telemax.Bridge.Recovery
import Telemax.Bridge.Echo
import Telemax.Owner.Jobs
import Telemax.Owner.System
import Telemax.Owner.Steps
import Telemax.Media.Attachments
import Telemax.Media.Senders
import Telemax.Media.Delivery
import Telemax.Media.NoRepeat
import Telemax.Media.ExpectedAlbum
import Telemax.Media.Answered
import Telemax.Media.AlbumParts
import Telemax.Provisioning.Journal
import Telemax.Provisioning.Coordinator
import Telemax.Provisioning.Batch
import Telemax.Provisioning.System
import Telemax.Provisioning.Typestate
import Telemax.Provisioning.Undisturbed
import Telemax.OwnerEcho.Resolve
import Telemax.OwnerEcho.System
import Telemax.OwnerEcho.InOrder
import Telemax.Lib.World
import Telemax.MaxClient.StateFiles
import Telemax.MaxClient.Identity
import Telemax.MaxClient.SameAccount
import Telemax.Provisioning.Generations
import Telemax.Provisioning.Failures
import Telemax.Provisioning.Managed
import Telemax.Provisioning.Confirmation
import Telemax.Provisioning.NeverLost
import Telemax.Provisioning.Pending
import Telemax.Provisioning.PendingInbox
import Telemax.Provisioning.PendingKept
import Telemax.Provisioning.NothingLost
import Telemax.Telegram.Intake
import Telemax.Telegram.Runner
import Telemax.Telegram.Orderly
import Telemax.Lib.Dict
import Telemax.Reactions.Mapping
import Telemax.Reactions.Sync
import Telemax.Reactions.InStep
import Telemax.Onboarding.State
import Telemax.Onboarding.Flow
import Telemax.Onboarding.System
import Telemax.Onboarding.Protocol
import Telemax.Onboarding.Held
import Telemax.Onboarding.Turns
import Telemax.Onboarding.NotLost
import Telemax.Media.FirstSend
import Telemax.Media.Words
import Telemax.Presence.ReadState
import Telemax.Presence.StatusLine
import Telemax.Lib.Tasks
import Telemax.Presence.OneLine
import Telemax.Media.Wave
import Telemax.Media.Names
import Telemax.Lib.Utf16
import Telemax.Formatting.Elements
import Telemax.Formatting.Nesting
import Telemax.Provisioning.Announcements
import Telemax.Provisioning.OneAnswer
import Telemax.Lib.AsyncLock
import Telemax.Lib.KeyedLocks
import Telemax.Lib.KeyedLocksKept
import Telemax.Routing.KeyedLock
import Telemax.Provisioning.Claims
import Telemax.MaxClient.History
import Telemax.MaxClient.Newest
import Telemax.Telegram.Registry
import Telemax.Telegram.Bijection
import Telemax.Lib.Index
import Telemax.Telegram.Tended
import Telemax.Telegram.Polling
import Telemax.Lib.Lines
import Telemax.Telegram.RichMessage
import Telemax.Telegram.RichWords
import Telemax.Lib.First
import Telemax.Config.Yaml
import Telemax.Config.Writer
import Telemax.Config.Edits
import Telemax.OwnerUpdates.Dispatch
import Telemax.OwnerUpdates.Accounted
import Telemax.OwnerUpdates.Once
import Telemax.Owner.Mapped
import Telemax.Owner.Spoken
import Telemax.MaxMutation.Resolve
import Telemax.MaxMutation.Chat
import Telemax.MaxMutation.Removed
import Telemax.MaxMutation.Edited
import Telemax.Presence.AutoRead
import Telemax.Presence.ReadMarks
import Telemax.Service.Alerts
import Telemax.Service.Health
import Telemax.Service.Notifications
import Telemax.Service.System
import Telemax.Service.Steps
import Telemax.Service.Told
import Telemax.Service.Dispatched
import Telemax.Service.Attention
