import CommandRelay.Broker.Backpressure
import CommandRelay.Broker.Bounds
import CommandRelay.Broker.ByteAccounting
import CommandRelay.Broker.DownloadBudget
import CommandRelay.Broker.Downloads
import CommandRelay.Broker.Notifications
import CommandRelay.Broker.Output
import CommandRelay.Broker.Supervisor
import CommandRelay.Broker.Uploads
import CommandRelay.Broker.Volume
import CommandRelay.Foundation.Cost
import CommandRelay.Foundation.Watchdog
import CommandRelay.Push.EndpointGuard
import CommandRelay.Server.Answers
import CommandRelay.Server.Approvals
import CommandRelay.Server.Archive
import CommandRelay.Server.Authentication
import CommandRelay.Server.BugReports
import CommandRelay.Server.Capacity
import CommandRelay.Server.ChunkIds
import CommandRelay.Server.Cleanup
import CommandRelay.Server.DesktopKey
import CommandRelay.Server.Ends
import CommandRelay.Server.Enrolment
import CommandRelay.Server.Evicted
import CommandRelay.Server.FanOut
import CommandRelay.Server.Files
import CommandRelay.Server.Grants
import CommandRelay.Server.Incumbent
import CommandRelay.Server.KeepAlive
import CommandRelay.Server.ListRequests
import CommandRelay.Server.LoginLockout
import CommandRelay.Server.NotificationSize
import CommandRelay.Server.Ownership
import CommandRelay.Server.Process
import CommandRelay.Server.Provisioning
import CommandRelay.Server.PushRequests
import CommandRelay.Server.Queries
import CommandRelay.Server.RateLimit
import CommandRelay.Server.Registration
import CommandRelay.Server.Removal
import CommandRelay.Server.Replay
import CommandRelay.Server.Revocation
import CommandRelay.Server.RoleGating
import CommandRelay.Server.Slots
import CommandRelay.Server.Streams
import CommandRelay.Server.Switching
import CommandRelay.Server.Tenancy
import CommandRelay.Server.Terminal
import CommandRelay.Server.Verbatim
import CommandRelay.Server.Volume
import CommandRelay.Server.WsRateLimit
