import Epoller.Foundation.Runs
import Epoller.Foundation.LeadsTo
import Epoller.Foundation.SortedMap
import Epoller.Foundation.UnorderedMap
import Epoller.Foundation.Cursor
import Epoller.Foundation.Search
import Epoller.Foundation.Cyclic
import Epoller.Foundation.Windows
import Epoller.Foundation.Threads
import Epoller.Foundation.LockOrder
import Epoller.Foundation.Channel
import Epoller.Foundation.Numerals
import Epoller.Foundation.BitFields
import Epoller.Endians
import Epoller.Types
import Epoller.Addresses
import Epoller.Query.Decode
import Epoller.Query.Grammar
import Epoller.Query.Bounds
import Epoller.Query.Response
import Epoller.Query.Encode
import Epoller.Query.RoundTrip
import Epoller.Query.ReqFlags
import Epoller.Timers
import Epoller.Timers.Coupling
import Epoller.Timers.Refinement
import Epoller.Timers.Arming
import Epoller.Engine.TimerTrigger
import Epoller.Engine.FiringOrder
import Epoller.Engine.StaleExpiry
import Epoller.Engine.EventQueue
import Epoller.Engine.IdleExit
import Epoller.Engine.Dispatch
import Epoller.Engine.SignalHandler
import Epoller.Engine.StopWorkers
import Epoller.TcpStream
import Epoller.TcpStream.Conservation
import Epoller.TcpStream.System
import Epoller.TcpStream.WakeUp
import Epoller.TcpStream.Ownership
import Epoller.TcpStream.Completion
import Epoller.TcpStream.ArmedMask
import Epoller.TcpStream.Creation
import Epoller.TcpStream.Finality
import Epoller.TcpStream.Draining
import Epoller.TcpStream.Inactivity
import Epoller.TcpStream.WakeTokens
import Epoller.TcpStream.EgressLimit
import Epoller.TcpStream.Echo
import Epoller.TcpListener
import Epoller.UdpSocket
import Epoller.UdpSocket.Receiving
import Epoller.UdpSocket.Sending
import Epoller.Engine.DeafSocket
import Epoller.Engine.EventIds
import Epoller.Resolver
import Epoller.Resolver.Requests
import Epoller.Resolver.Lookups
import Epoller.Resolver.Numbers
import Epoller.Resolver.Sockets
import Epoller.Resolver.Cache
import Epoller.Resolver.Answers
import Epoller.Resolver.Agreement
import Epoller.Resolver.OverTheWire
import Epoller.Resolver.Removal
import Epoller.Resolver.RoundRobin
import Epoller.Resolver.Timeouts
import Epoller.Resolver.TimerOwners
import Epoller.TcpConn
import Epoller.HttpProxy
import Epoller.HttpProxy.Chunking
import Epoller.HttpProxy.Request
import Epoller.HttpProxy.Replay
import Epoller.HttpProxy.Closing
import Epoller.HttpProxy.LostClose
import Epoller.HttpProxy.GracefulClose
import Epoller.HttpProxy.RemoteClose
import Epoller.HttpProxy.Buffering
import Epoller.HttpProxy.HostScan
import Epoller.HttpProxy.FirstMatch
import Epoller.HttpProxy.Relay
import Epoller.Engine.LockOrder
