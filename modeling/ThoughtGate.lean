import ThoughtGate.Lib.Table
import ThoughtGate.Lib.Machine
import ThoughtGate.Lib.Threads
import ThoughtGate.Base.Json
import ThoughtGate.Base.Time
import ThoughtGate.Base.Error
import ThoughtGate.Policy.Types
import ThoughtGate.Task.Types
import ThoughtGate.Task.Capacity
import ThoughtGate.Task.Deadlock
import ThoughtGate.Engine.Authorisation
import ThoughtGate.Engine.AtMostOnce
import ThoughtGate.Engine.AutoApprove
import ThoughtGate.Policy.Engine
import ThoughtGate.Policy.Loader
import ThoughtGate.Config.Schema
import ThoughtGate.Engine.Start
import ThoughtGate.Gate.Evaluator
import ThoughtGate.Gate.Drift
import ThoughtGate.Approval.Scheduler
import ThoughtGate.Approval.Queue
import ThoughtGate.Engine.Audit
import ThoughtGate.Gate.FailedStart
import ThoughtGate.Transport.JsonRpc
import ThoughtGate.Transport.Upstream
import ThoughtGate.Config.ListFiltering
import ThoughtGate.Proxy.Routing
import ThoughtGate.Shim.Message
import ThoughtGate.Proxy.Parity
import ThoughtGate.Proxy.Traffic
import ThoughtGate.Config.Validate
import ThoughtGate.Proxy.Source
import ThoughtGate.Gate.Service
import ThoughtGate.Shim.Polling
import ThoughtGate.Shim.Outcome
import ThoughtGate.Approval.Rejection
import ThoughtGate.Shim.AgentToServer
import ThoughtGate.Shim.ServerToAgent
import ThoughtGate.Shim.Channel
import ThoughtGate.Lifecycle.Manager
import ThoughtGate.Lifecycle.Order
import ThoughtGate.Lifecycle.Drain
import ThoughtGate.Lib.Index
import ThoughtGate.Task.Index
import ThoughtGate.Task.Waiting
import ThoughtGate.Proxy.TaskMethods
import ThoughtGate.Proxy.Visibility
import ThoughtGate.Approval.Redact
import ThoughtGate.Proxy.Settings
import ThoughtGate.Lib.Buffered
import ThoughtGate.Proxy.Response
import ThoughtGate.Proxy.Handler
import ThoughtGate.Proxy.Discipline
import ThoughtGate.Shim.RunShim
import ThoughtGate.Base.Literal
import ThoughtGate.Lib.Requests
import ThoughtGate.Shim.Correlation
import ThoughtGate.Lib.Sweep
import ThoughtGate.Task.Sweep
import ThoughtGate.Policy.Selection
import ThoughtGate.Lib.Files
import ThoughtGate.Wrap.Types
import ThoughtGate.Wrap.Entries
import ThoughtGate.Wrap.Guard
import ThoughtGate.Wrap.Sources
import ThoughtGate.Lib.Disk
import ThoughtGate.Wrap.Adapter
import ThoughtGate.Wrap.Coverage
import ThoughtGate.Wrap.Preserve
import ThoughtGate.Wrap.Run
import ThoughtGate.Wrap.Concurrent
import ThoughtGate.Shim.Readers
import ThoughtGate.Gate.RoundTrip
import ThoughtGate.Shim.Stripping
import ThoughtGate.Base.Reader
import ThoughtGate.Base.Canonical
import ThoughtGate.Gate.Arguments
import ThoughtGate.Engine.Shown
import ThoughtGate.Engine.Blocking
import ThoughtGate.Transport.FastPath
import ThoughtGate.Lifecycle.Config
import ThoughtGate.Lib.Lines
import ThoughtGate.Shim.BoundedRead
import ThoughtGate.Base.Hex
import ThoughtGate.Telemetry.TraceContext
import ThoughtGate.Proxy.Capabilities
import ThoughtGate.Proxy.Concurrency
import ThoughtGate.Policy.Conversion
import ThoughtGate.Lib.Gcra
import ThoughtGate.Proxy.RateLimiter
import ThoughtGate.Config.Loader
import ThoughtGate.Config.EnvVars
import ThoughtGate.Transport.CorrelationId
import ThoughtGate.Proxy.Disclosure
import ThoughtGate.Lifecycle.Environment
import ThoughtGate.Lib.Runs
import ThoughtGate.Proxy.Paths
import ThoughtGate.Lib.Multimap
import ThoughtGate.Proxy.Headers
import ThoughtGate.Proxy.Timeout
import ThoughtGate.Telemetry.Metrics
import ThoughtGate.Lib.Fences
import ThoughtGate.Base.Pretty
import ThoughtGate.Approval.Message
import ThoughtGate.Approval.Slack
import ThoughtGate.Approval.Polling
import ThoughtGate.Transport.Relay
import ThoughtGate.Shim.Shutdown
import ThoughtGate.Task.Approvals
import ThoughtGate.Approval.Reactions
import ThoughtGate.Approval.Authentic
import ThoughtGate.Transport.Written
import ThoughtGate.Gate.Wire
import ThoughtGate.Lifecycle.Process
import ThoughtGate.Lifecycle.Readiness
