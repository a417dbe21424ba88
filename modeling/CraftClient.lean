import CraftClient.Lib.Runs
import CraftClient.Lib.StreamTracker
import CraftClient.Tracker.Model
import CraftClient.Tracker.Invariant
import CraftClient.Tracker.Steps
import CraftClient.Tracker.Frontier
import CraftClient.Tracker.Watermarks
import CraftClient.Tracker.Plan
import CraftClient.Tracker.Segments
import CraftClient.Tracker.PlanInvariant
import CraftClient.Tracker.PlanSteps
import CraftClient.Tracker.Acknowledged
import CraftClient.Tracker.PlanSafety
import CraftClient.Lib.IntervalMap
import CraftClient.Router.RouteMap
import CraftClient.Router.Invariant
import CraftClient.Router.Soundness
import CraftClient.Client.WritePath
import CraftClient.Client.Ascending
import CraftClient.Router.TierInvariant
import CraftClient.Router.TierThreads
import CraftClient.Router.Tiers
import CraftClient.Lib.OrdMap
import CraftClient.Replica.Model
import CraftClient.Cluster.Model
import CraftClient.Replica.Journal
import CraftClient.Cluster.Replies
import CraftClient.Cluster.Verdicts
import CraftClient.Cluster.Voided
import CraftClient.Client.Absence
import CraftClient.Client.Session
import CraftClient.Client.Surfacing
import CraftClient.Lib.LastWriter
import CraftClient.Tracker.Once
import CraftClient.Replica.Content
import CraftClient.Client.ReadInvariant
import CraftClient.Client.ReadSteps
import CraftClient.Client.Stability
import CraftClient.Raft.Replica
import CraftClient.Raft.Barrier
import CraftClient.Cluster.Login
import CraftClient.Cluster.SingleWriter
import CraftClient.Client.History
import CraftClient.Client.Complete
import CraftClient.Client.Agreement
import CraftClient.Client.Relogin
import CraftClient.Net.Resolve
import CraftClient.Raft.Group
import CraftClient.Raft.GroupSteps
import CraftClient.Raft.Majority
import CraftClient.Raft.Quiesce
import CraftClient.Raft.SessionTerms
import CraftClient.Lib.Bytes
import CraftClient.Lib.Framing
import CraftClient.Wire.Message
import CraftClient.Wire.Stream
import CraftClient.Replica.Scatter
import CraftClient.Replica.Layout
import CraftClient.Replica.Replay
import CraftClient.Replica.Delivery
import CraftClient.Net.Server
import CraftClient.Net.Replies
import CraftClient.Net.WireRead
import CraftClient.Net.Session
import CraftClient.Raft.Logins
import CraftClient.Net.ClusterSession
import CraftClient.Net.AsyncConn
import CraftClient.Net.AsyncSends
import CraftClient.Net.ClusterFencing
import CraftClient.Tracker.Retire
import CraftClient.Tracker.Wakeup
import CraftClient.Raft.ResolveAndApply
import CraftClient.Router.CommonHolder
import CraftClient.Raft.Engines
import CraftClient.Client.Wants
import CraftClient.Client.WantsKept
import CraftClient.Net.RefusedLogin
import CraftClient.Client.Login
import CraftClient.Net.TcpClient
import CraftClient.Net.Logout
import CraftClient.Net.AsyncReplies
import CraftClient.Net.ReadFill
import CraftClient.Peer.Codec
import CraftClient.Peer.TcpFetch
import CraftClient.Router.MissMaps
import CraftClient.Router.Recovery
import CraftClient.Client.Ranges
import CraftClient.Net.Blocking
import CraftClient.Net.ReadBound
import CraftClient.Peer.Calls
import CraftClient.Lib.Crc
import CraftClient.Lib.Hops
import CraftClient.Raft.ApplySync
import CraftClient.Raft.WatchdogRuns
import CraftClient.Tracker.Hops
import CraftClient.Wire.Digests
import CraftClient.Wire.Members
import CraftClient.Client.Disk
import CraftClient.Client.ReclaimFloor
import CraftClient.Lib.IndexedLog
import CraftClient.Lib.Mealy
import CraftClient.Net.ConnTable
import CraftClient.Net.Link
import CraftClient.Net.SerialOps
import CraftClient.Raft.LogStore
