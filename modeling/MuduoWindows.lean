import MuduoWindows.Base.AsyncLogging.Files
import MuduoWindows.Base.AsyncLogging.Stop
import MuduoWindows.Base.AtomicInt
import MuduoWindows.Base.BlockingQueue
import MuduoWindows.Base.BoundedBlockingQueue
import MuduoWindows.Base.CountDownLatch
import MuduoWindows.Base.LogFile.AppendFile
import MuduoWindows.Base.LogFile.Sorted
import MuduoWindows.Base.LogStream.Sizes
import MuduoWindows.Base.Logging
import MuduoWindows.Base.Threadpool.Dispatch
import MuduoWindows.Base.Threadpool.Holder
import MuduoWindows.Base.TimeZone
import MuduoWindows.Net.Buffer.Shrink
import MuduoWindows.Net.Connector.Backoff
import MuduoWindows.Net.Connector.OneAttempt
import MuduoWindows.Net.EPollPoller.EpollSet
import MuduoWindows.Net.EPollPoller.Readiness
import MuduoWindows.Net.EPollPoller.Removed
import MuduoWindows.Net.EPollPoller.Reports
import MuduoWindows.Net.EchoServer
import MuduoWindows.Net.EventLoop.Functors
import MuduoWindows.Net.EventLoopThread
import MuduoWindows.Net.Poller.Agreement
import MuduoWindows.Net.SelectPoller.Poll
import MuduoWindows.Net.TcpClient.Reconnect
import MuduoWindows.Net.TcpClient.Quiet
import MuduoWindows.Net.TcpConnection.Closing
import MuduoWindows.Net.TcpConnection.Link
import MuduoWindows.Net.TcpConnection.Notifications
import MuduoWindows.Net.TcpConnection.Reading
import MuduoWindows.Net.TcpConnection.Teardown
import MuduoWindows.Net.TcpServer.Ownership
import MuduoWindows.Net.TcpServer.Registry
import MuduoWindows.Net.TcpServer.Spread
import MuduoWindows.Net.Timers.Cancel
import MuduoWindows.Net.Timers.EarliestExpired
import MuduoWindows.Net.Timers.ExpiredProcess
