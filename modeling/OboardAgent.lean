import OboardAgent.Authorization.Capacity
import OboardAgent.Authorization.Replay
import OboardAgent.Authorization.Agreement
import OboardAgent.Traffic.Recovery
import OboardAgent.Traffic.Regression
import OboardAgent.Traffic.Retention
import OboardAgent.Traffic.Tail
import OboardAgent.Traffic.ExactlyOnce
import OboardAgent.Quota.Billing
import OboardAgent.Quota.Rollover
import OboardAgent.Activity.Aggregate
import OboardAgent.Activity.Delivery
import OboardAgent.Users.Delta
import OboardAgent.Users.Revision
import OboardAgent.Users.Accepted
import OboardAgent.Users.Session
import OboardAgent.Audit.PresenceRuns
import OboardAgent.Policies.Gate
import OboardAgent.Ssh.Apply
import OboardAgent.Core.Apply
import OboardAgent.Core.Digest
import OboardAgent.Stealth.Switch
import OboardAgent.Stealth.Previous
import OboardAgent.Deploy.Layouts
import OboardAgent.Remote.Interactive
import OboardAgent.Remote.Terminals
import OboardAgent.Remote.Journal
import OboardAgent.Security.Envelopes
import OboardAgent.Ssh.Destinations
import OboardAgent.AgentLink.Rpc
import OboardAgent.AgentLink.Backoff
import OboardAgent.AgentLink.Callbacks
import OboardAgent.Forwards.Managed
import OboardAgent.Forwards.Warp
import OboardAgent.Activity.Handover
import OboardAgent.Audit.PresenceDelivery
import OboardAgent.Audit.Window
import OboardAgent.Reports.Queues
import OboardAgent.Logs.Space
import OboardAgent.Ssh.RelayFrames
import OboardAgent.Deploy.ReleaseInstall
import OboardAgent.Users.Chunks
import OboardAgent.Users.Attribution
import OboardAgent.Authorization.Repeat
import OboardAgent.Authorization.Expiry
import OboardAgent.Quota.Exact
import OboardAgent.Traffic.Identity
