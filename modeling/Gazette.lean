import Gazette.Protocol
import Gazette.Broker.AppendState
import Gazette.Broker.Pipeline
import Gazette.Broker.Handlers
import Gazette.Broker.Replica
import Gazette.Broker.Equations
import Gazette.Broker.Stream
import Gazette.Broker.Shape
import Gazette.Broker.Calls
import Gazette.Broker.Ownership
import Gazette.Broker.Frame
import Gazette.Broker.Checks
import Gazette.Broker.Handoff
import Gazette.Broker.Headers
import Gazette.Broker.Barrier
import Gazette.Broker.Turns
import Gazette.Broker.Content
import Gazette.Broker.StreamSelect
import Gazette.Broker.Ticker
import Gazette.Client.FragmentReader
import Gazette.Client.FragmentStream
import Gazette.Client.Reader
import Gazette.Client.Seek
import Gazette.Client.Delivery
import Gazette.Consumer.Resolver
import Gazette.Consumer.Lifecycle
import Gazette.Consumer.Resolve
import Gazette.Consumer.Serving
