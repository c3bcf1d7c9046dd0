import VermouthGateway.Go.Effect
import VermouthGateway.Go.Faults
import VermouthGateway.Go.Locking
import VermouthGateway.Go.Map
import VermouthGateway.Go.Slice
import VermouthGateway.Go.Text
import VermouthGateway.Go.Segments
import VermouthGateway.Go.Replace
import VermouthGateway.Go.Time
import VermouthGateway.Go.Binary
import VermouthGateway.Foundation.LongestMatch
import VermouthGateway.Foundation.Runs
import VermouthGateway.Foundation.Interleavings
import VermouthGateway.Foundation.Replays
import VermouthGateway.Foundation.Registers
import VermouthGateway.Foundation.CircularLookup
import VermouthGateway.Foundation.Rotation
import VermouthGateway.Foundation.NestedDivision
import VermouthGateway.Foundation.Sweep
import VermouthGateway.Foundation.Templates
import VermouthGateway.Foundation.TemplateTraces
import VermouthGateway.Utils.Net
import VermouthGateway.Utils.Addresses
import VermouthGateway.Config.Validation
import VermouthGateway.Acl.RadixTree
import VermouthGateway.Acl.Paths
import VermouthGateway.Acl.Shape
import VermouthGateway.Acl.Operations
import VermouthGateway.Acl.History
import VermouthGateway.Acl.Calls
import VermouthGateway.Acl.Verdict
import VermouthGateway.Acl.Coupled
import VermouthGateway.Acl.Cidrs
import VermouthGateway.Acl.Undo
import VermouthGateway.Acl.FreeList
import VermouthGateway.Acl.Notation
import VermouthGateway.Acl.Deletions
import VermouthGateway.Acl.Clients
import VermouthGateway.Balancing.RoundRobin
import VermouthGateway.Balancing.Backing
import VermouthGateway.Balancing.ConsistenceHash
import VermouthGateway.Balancing.Balancer
import VermouthGateway.Balancing.Calls
import VermouthGateway.Balancing.Ring
import VermouthGateway.Balancing.RingCalls
import VermouthGateway.Balancing.Reports
import VermouthGateway.Balancing.Fairness
import VermouthGateway.Balancing.Locks
import VermouthGateway.Proxy.HashPrefixer
import VermouthGateway.Proxy.Routing
import VermouthGateway.Proxy.RateLimiter
import VermouthGateway.Proxy.Rates
import VermouthGateway.Proxy.HttpReverseProxy
import VermouthGateway.Proxy.Forwarding
import VermouthGateway.Proxy.Calls
import VermouthGateway.Proxy.Limiters
import VermouthGateway.Proxy.Serve
import VermouthGateway.Proxy.Restore
import VermouthGateway.Proxy.RoutingTables
import VermouthGateway.Proxy.Limits
import VermouthGateway.Proxy.LimiterKeys
import VermouthGateway.Proxy.Sound
import VermouthGateway.Proxy.Returns
import VermouthGateway.Proxy.Prefixes
import VermouthGateway.Proxy.BlackLists
import VermouthGateway.Proxy.Locking
import VermouthGateway.Proxy.Tables
import VermouthGateway.Proxy.LimiterTables
import VermouthGateway.Proxy.Traffic
import VermouthGateway.Proxy.Hosts
import VermouthGateway.Proxy.RoutingModel
import VermouthGateway.Proxy.Aspects
import VermouthGateway.Cluster.Context
import VermouthGateway.Cluster.Api
import VermouthGateway.Cluster.Modes
import VermouthGateway.Proxy.Agreement
import VermouthGateway.Cluster.Handlers
import VermouthGateway.Cluster.Events
import VermouthGateway.Cluster.Snapshot
import VermouthGateway.Cluster.Reachable
import VermouthGateway.Cluster.Recovery
import VermouthGateway.Cluster.Replicas
import VermouthGateway.Cluster.Shutdown
import VermouthGateway.Cluster.Routing
import VermouthGateway.Cluster.Watches
import VermouthGateway.Cluster.Liveness
import VermouthGateway.Cluster.LateSnapshots
import VermouthGateway.Cluster.CaughtUp
import VermouthGateway.Cluster.StandMode
import VermouthGateway.Cluster.StandStore
import VermouthGateway.Cluster.Wire
import VermouthGateway.Cluster.HttpServer
import VermouthGateway.Cluster.HttpRuns
import VermouthGateway.Cluster.Rpc
import VermouthGateway.Cluster.Prefixes
import VermouthGateway.Cluster.Register
import VermouthGateway.Cluster.Clients
import VermouthGateway.Discovery.Zookeeper
import VermouthGateway.Proxy.NamespaceEvents
import VermouthGateway.Discovery.Readings
import VermouthGateway.Discovery.Watchers
import VermouthGateway.Cluster.Namespace
import VermouthGateway.Cluster.EventLoop
import VermouthGateway.Cluster.Readings
import VermouthGateway.Cluster.Stopped
import VermouthGateway.Cluster.Leadership
import VermouthGateway.Cluster.RpcServer
import VermouthGateway.Cluster.SharedHosts
import VermouthGateway.Proxy.Replays
import VermouthGateway.Cluster.Ports
import VermouthGateway.Cluster.LostLimits
import VermouthGateway.Cluster.Unheard
import VermouthGateway.Proxy.Turns
import VermouthGateway.Cluster.Turns
import VermouthGateway.Logger.Message
import VermouthGateway.Logger.Async
import VermouthGateway.Logger.FileWriter
import VermouthGateway.Logger.Rotations
import VermouthGateway.Logger.Journal
import VermouthGateway.Logger.Archives
import VermouthGateway.Logger.DateSlices
import VermouthGateway.Logger.Lines
import VermouthGateway.Logger.Outputs
import VermouthGateway.Logger.Delivery
