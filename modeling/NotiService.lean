import NotiService.Foundation.Program
import NotiService.Foundation.Transition
import NotiService.Foundation.Execution
import NotiService.Foundation.Json
import NotiService.Foundation.JsonText
import NotiService.Foundation.Text
import NotiService.Foundation.Words
import NotiService.Foundation.Regex
import NotiService.Foundation.Uri
import NotiService.Foundation.Percent
import NotiService.Foundation.KeyedTable
import NotiService.Foundation.Amqp
import NotiService.Foundation.Slots
import NotiService.Foundation.JoinedKey
import NotiService.Foundation.RollingCounter
import NotiService.Foundation.Cidr
import NotiService.Foundation.LeadsTo
import NotiService.Foundation.Rely
import NotiService.Foundation.Sessions
import NotiService.Foundation.Markup
import NotiService.Domain
import NotiService.UuidText
import NotiService.NotificationTable
import NotiService.Orchestrator
import NotiService.RabbitMQ
import NotiService.World
import NotiService.Url
import NotiService.Events
import NotiService.Consumer
import NotiService.DispatchSteps
import NotiService.QueueSteps
import NotiService.RowSteps
import NotiService.Recovery
import NotiService.Grpc
import NotiService.RetryQueue
import NotiService.RetryDelay
import NotiService.Overlap
import NotiService.Accepted
import NotiService.Service
import NotiService.Machine
import NotiService.Carriers
import NotiService.Stranded
import NotiService.Burden
import NotiService.Tended
import NotiService.Steady
import NotiService.Resolution
import NotiService.Backoff
import NotiService.Rejected
import NotiService.CreatedRows
import NotiService.EventKeys
import NotiService.Foundation.Ensure
import NotiService.Redelivery
import NotiService.KafkaSession
import NotiService.RecordRows
import NotiService.Ingestion
import NotiService.StoredRecords
import NotiService.Ledger
import NotiService.RowHistory
import NotiService.Attempts
import NotiService.Dedup
import NotiService.Connections
import NotiService.SocketSend
import NotiService.Registry
import NotiService.Sockets
import NotiService.HandleSocket
import NotiService.Frames
import NotiService.FrameOrder
import NotiService.DeviceTable
import NotiService.Devices
import NotiService.DeviceHistory
import NotiService.Fcm
import NotiService.AccessToken
import NotiService.DeadTokens
import NotiService.PushRetries
import NotiService.Wire
import NotiService.Templates
import NotiService.HtmlTemplates
import NotiService.Pages
import NotiService.Coverage
import NotiService.Titles
import NotiService.OneShape
import NotiService.Envelope
import NotiService.Views
import NotiService.Replies
import NotiService.Status
import NotiService.Foundation.Paging
import NotiService.UserHandlers
import NotiService.Isolation
import NotiService.ReadState
import NotiService.Pagination
import NotiService.Supervisor
import NotiService.Supervision
import NotiService.Readiness
import NotiService.DispatchCall
import NotiService.Rewrite
import NotiService.Encoding
import NotiService.Callbacks
import NotiService.Deliverable
import NotiService.SignIns
import NotiService.Smtp
import NotiService.Subject
import NotiService.TextPart
import NotiService.Webhook
import NotiService.Guard
import NotiService.CallbackMails
