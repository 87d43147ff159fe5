import LittleStomper.Library.Run
import LittleStomper.Library.Mailbox
import LittleStomper.Library.Feed
import LittleStomper.Destinations
import LittleStomper.InMemory
import LittleStomper.InMemoryStep
import LittleStomper.Delivery
import LittleStomper.Client
import LittleStomper.System
import LittleStomper.Callbacks
import LittleStomper.ClientStep
import LittleStomper.ErrorFrames
import LittleStomper.OutputProtocol
import LittleStomper.SystemStep
import LittleStomper.Provenance
import LittleStomper.Listening
import LittleStomper.Subscribing
import LittleStomper.Channel
import LittleStomper.Ownership
import LittleStomper.Messages
import LittleStomper.Unsubscribing
import LittleStomper.Pipelining
import LittleStomper.Ordering
import LittleStomper.Agreement
import LittleStomper.Isolation
import LittleStomper.Closing
import LittleStomper.DelayableStream
import LittleStomper.Custody
import LittleStomper.Backlog
import LittleStomper.Library.Deadline
import LittleStomper.Refinement
import LittleStomper.Heartbeats
import LittleStomper.HeartbeatsStep
import LittleStomper.ServerHeartbeat
import LittleStomper.ClientHeartbeat
import LittleStomper.TimedSystem
import LittleStomper.TimedSystemStep
import LittleStomper.Panics
import LittleStomper.Library.Utf8
import LittleStomper.Bodies
import LittleStomper.SampleServer
import LittleStomper.SampleServerStep
import LittleStomper.SinkPanics
import LittleStomper.Nesting
import LittleStomper.SessionNesting
import LittleStomper.Library.Broker
import LittleStomper.Requests
import LittleStomper.Brokering
import LittleStomper.Library.Settling
import LittleStomper.Settling
import LittleStomper.Library.Drain
import LittleStomper.SilentClient
import LittleStomper.Sockets
import LittleStomper.Pruning
import LittleStomper.EndToEnd
import LittleStomper.Connections
import LittleStomper.TimerLoad
import LittleStomper.Instants
import LittleStomper.HeartbeatRate
import LittleStomper.ServerSettling
import LittleStomper.Parametricity
import LittleStomper.Separation
