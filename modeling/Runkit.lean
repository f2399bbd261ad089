import Runkit.Foundation.Log
import Runkit.Foundation.Pool
import Runkit.Schema.Functions
import Runkit.MessagePump
import Runkit.Aggregate.CommandPump
import Runkit.Integration.CommandPump
import Runkit.Process.DeadlinePump
import Runkit.Process.Sink
import Runkit.Aggregate.Commit
import Runkit.Process.Commit
import Runkit.Engine
import Runkit.Engine.Streams
import Runkit.Engine.Commands
import Runkit.Foundation.Observation
import Runkit.Aggregate.Observe
import Runkit.Engine.Aggregates
import Runkit.Engine.Deadlines
import Runkit.EventStream.Segment
import Runkit.Engine.Checkpoints
import Runkit.Foundation.Search
import Runkit.EventStream.Cache
import Runkit.EventStream.Catalog
import Runkit.EventStream.Delivery
import Runkit.Execute
import Runkit.Foundation.Channel
import Runkit.Signal.Bus
import Runkit.EventStream.Local
import Runkit.EventStream.WakeUp
import Runkit.EventStream.FanOut
import Runkit.EventStream.Remote
import Runkit.EventStream.Relay
import Runkit.Cluster.Membership
import Runkit.Engine.IdempotencyKeys
import Runkit.Process.Observe
import Runkit.Engine.Instances
import Runkit.Engine.Roots
import Runkit.Engine.Schedule
import Runkit.Process.Locking
import Runkit.Engine.Deadlock
import Runkit.EventStream.CurrentFeed
import Runkit.EventStream.Release
import Runkit.Projection.Sink
import Runkit.Projection.Checkpoints
import Runkit.EventStream.Eviction
import Runkit.EventStream.Parsing
import Runkit.EventStream.LocalRead
import Runkit.Cluster.Heartbeats
import Runkit.EventStream.FeedConsume
import Runkit.EventStream.FeedLoop
import Runkit.EventStream.Reconcile
import Runkit.Engine.FailedCommands
import Runkit.Engine.SavedState
import Runkit.Foundation.Wrapping
import Runkit.MessagePump.Backoff
import Runkit.Foundation.ErrGroup
import Runkit.Foundation.Ownership
import Runkit.Foundation.Staged
import Runkit.MessagePump.Workers
import Runkit.Engine.Pumps
import Runkit.Engine.Causality
import Runkit.Foundation.Attempts
import Runkit.Engine.Redelivery
import Runkit.Supervisor.Run
import Runkit.Supervisor.Group
import Runkit.Concurrency.Lock
import Runkit.Engine.Lifecycle
import Runkit.EventStream.Assignment
import Runkit.Projection.Compactor
import Runkit.RemoteEngine.Connector
import Runkit.Cluster.Network
import Runkit.Engine.Routing
import Runkit.EventStream.OwnStreams
