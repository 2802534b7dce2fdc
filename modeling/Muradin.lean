import Muradin.Net.ByteBuffer.Codec
import Muradin.Net.ByteBuffer.Layout
import Muradin.Net.ByteBuffer.Consume
import Muradin.Net.ByteBuffer.Reachable
import Muradin.Net.IoService.TaskQueue
import Muradin.Net.IoService.WakeUp
import Muradin.Net.IoService.Leave
import Muradin.Net.IoService.Quit
import Muradin.Net.IoServicePool.Quit
import Muradin.Net.IoServicePool.Serve
import Muradin.Net.Connection.Output
import Muradin.Net.Connection.Interest
import Muradin.Net.Connection.Input
import Muradin.Net.Connection.Masks
import Muradin.Net.Connection.Flush
import Muradin.Net.Connection.Updates
import Muradin.Net.Connection.Dispatch
import Muradin.Net.Connection.Closing
import Muradin.Net.Connection.Notify
import Muradin.Net.Connection.Accounting
import Muradin.Net.Connection.HalfClose
import Muradin.Net.TcpServer.Shutdown
import Muradin.Net.TcpServer.Lifetime
import Muradin.Net.TcpServer.CrossWrite
import Muradin.Net.TcpServer.Start
import Muradin.Net.TcpServer.ConnMap
import Muradin.Net.TcpServer.Removal
import Muradin.Net.ByteBuffer.Aliasing
import Muradin.Net.ByteBuffer.Sizes
import Muradin.Net.ByteBuffer.Strings
import Muradin.Net.ByteBuffer.Storage
import Muradin.Net.ByteBuffer.Faults
import Muradin.Net.TcpServer.Callbacks
import Muradin.Net.PollerEpoll
import Muradin.Base.BlockingCounter
import Muradin.Base.LogWarper
import Muradin.Base.Loger
import Muradin.Base.Timestamp
import Muradin.Example.Echo
import Muradin.Example.PingPong.Progress
import Muradin.Net.Acceptor
import Muradin.Net.NetAddress
import Muradin.Net.PollerEpoll.Complaints
import Muradin.Net.PollerEpoll.Isolation
