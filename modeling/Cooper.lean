import Cooper.ListSearch
import Cooper.WhileLoop
import Cooper.MsgBuffer
import Cooper.TcpConnectionImpl
import Cooper.WriteQueue
import Cooper.AppTcpServer
import Cooper.FrameSegmentation
import Cooper.Utilities
import Cooper.Http
import Cooper.Multipart
import Cooper.MultipartEncoding
import Cooper.MultipartDecoding
import Cooper.MultipartTermination
import Cooper.HttpServer
import Cooper.HttpEncoding
import Cooper.HttpReply
import Cooper.HttpLoop
import Cooper.HttpSegmentation
import Cooper.HttpBoundary
import Cooper.HttpDelivery
import Cooper.HttpKeepAlive
import Cooper.LexicalPath
import Cooper.PathSafety
import Cooper.Calendar
import Cooper.Wheel
import Cooper.WheelDeadline
import Cooper.WheelReinsertion
import Cooper.WriteInterest
import Cooper.SendOrder
import Cooper.Tls
import Cooper.TlsPlaintext
import Cooper.OpenSSLProvider
import Cooper.RecordOrder
import Cooper.OpenSSLConnection
import Cooper.TlsWriteInterest
import Cooper.CiphertextSchedule
import Cooper.StartEncryption
import Cooper.DataRefinement
import Cooper.Region
import Cooper.MsgBufferVector
import Cooper.MsgBufferQueue
import Cooper.VerifySslName
import Cooper.PriorityQueue
import Cooper.TimerQueue
import Cooper.TimerInvalidation
import Cooper.LockFreeQueue
import Cooper.Wakeup
import Cooper.ConnectionThread
import Cooper.ThreadOutcome
import Cooper.CloseOnce
import Cooper.SendAfterClose
import Cooper.SendMutex
import Cooper.ShutdownBarrier
import Cooper.SocketGrowth
import Cooper.ThreadBooks
import Cooper.GracefulShutdown
import Cooper.ThreadRun
import Cooper.SessionManager
import Cooper.Handshake
import Cooper.AlpnSelection
import Cooper.SessionLifetime
import Cooper.SessionExpiry
import Cooper.HttpContentLength
import Cooper.IdleKickoff
import Cooper.PingPong
import Cooper.PingPongTiming
import Cooper.AppServerLoop
import Cooper.EpollPoller
import Cooper.ThreadPool
import Cooper.HttpRoundTrip
import Cooper.Connector
import Cooper.ConnectorStop
import Cooper.SocketOwnership
import Cooper.AttemptReports
import Cooper.TcpClient
import Cooper.AsyncLogWriter
import Cooper.DecimalText
import Cooper.HeaderNames
import Cooper.ResponseFraming
import Cooper.HttpPersistence
import Cooper.ContentStreaming
import Cooper.DispositionParams
import Cooper.FloatRounding
import Cooper.MediaFrames
import Cooper.SessionKeys
import Cooper.WheelCapacity
import Cooper.TimerDescriptor
import Cooper.ByteOrder
import Cooper.MsgBufferCalls
import Cooper.MsgBufferFront
import Cooper.IntegerCodec
import Cooper.MsgBufferIndices
import Cooper.MsgBufferSizes
import Cooper.IntegerFormat
import Cooper.Logging
import Cooper.CivilDate
import Cooper.Date
import Cooper.DateRoundTrip
import Cooper.AddressFamily
import Cooper.ContentTypeTags
import Cooper.TrafficCounters
import Cooper.WriteListShape
import Cooper.Segments
import Cooper.Splitting
import Cooper.IntegerConversion
import Cooper.Acceptor
import Cooper.IoLoops
import Cooper.LoopProgress
import Cooper.LoopThread
import Cooper.QueueMemory
import Cooper.Semaphore
import Cooper.TaskProgress
import Cooper.WheelDestruction
import Cooper.LoopFunctors
import Cooper.WriteDrain
import Cooper.WheelWork
import Cooper.LogTime
import Cooper.ActiveChannels
