import Udpfwd.Relay.Reclaim
import Udpfwd.Relay.NonInterference
import Udpfwd.BufferPool.Pool
import Udpfwd.Forwarder.Routing
import Udpfwd.Ownership.Linear
import Udpfwd.BufferPool.Ownership
import Udpfwd.BufferPool.Claims
import Udpfwd.BufferPool.Balance
import Udpfwd.Text.ParseNumber
import Udpfwd.Text.Split
import Udpfwd.Net.AddressText
import Udpfwd.Forwarder.Config
import Udpfwd.Forwarder.Interruption
import Udpfwd.Forwarder.ConfigRoundTrip
import Udpfwd.Forwarder.ConfigFile
import Udpfwd.Veth.EndpointId
import Udpfwd.Text.IntegerParsers
import Udpfwd.Relay.Sweep
import Udpfwd.Relay.Statistics
import Udpfwd.Relay.CreationFailure
import Udpfwd.Text.SplitString
import Udpfwd.Platform.Endian
import Udpfwd.Veth.EtherPacketStruct
import Udpfwd.Queue.Bounded
import Udpfwd.BufferPool.Sequential
import Udpfwd.Veth.EtherFrame
import Udpfwd.Veth.FrameLifetime
import Udpfwd.Relay.CommandLine
import Udpfwd.Transition.Simulation
import Udpfwd.Translation.Translator
import Udpfwd.Translation.Datagrams
import Udpfwd.Relay.Translation
import Udpfwd.Forwarder.Translation
import Udpfwd.Relay.Loop
import Udpfwd.Relay.Descriptors
import Udpfwd.BufferPool.Quiescence
import Udpfwd.Transition.Progress
import Udpfwd.BufferPool.Progress
import Udpfwd.Forwarder.Separation
import Udpfwd.Forwarder.Loop
import Udpfwd.Forwarder.ConfigErrors
import Udpfwd.Common.Main
import Udpfwd.Common.Process
import Udpfwd.Common.Wire
import Udpfwd.Common.Serving
