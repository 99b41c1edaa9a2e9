import BServer.Base.Bitstream
import BServer.Base.Delimited
import BServer.Base.JsonText
import BServer.Base.LockOrder
import BServer.Base.Run
import BServer.Base.Segments
import BServer.Base.StdMap
import BServer.Base.Sweep
import BServer.Base.Traced
import BServer.Base.Wire
import BServer.Net.FrameParser
import BServer.Net.MessageFormat
import BServer.Net.WriteQueue
import BServer.Net.Session
import BServer.Net.Connection
import BServer.Registry.SlotTable
import BServer.Registry.SetSlot
import BServer.Proto.JsonPushPacket
import BServer.Task.TaskBase
import BServer.Task.Reply
import BServer.Task.PushFanOut
import BServer.Task.Wakeup
import BServer.Task.Shutdown
import BServer.Task.ServicePackage
import BServer.Task.UpstreamUrl
import BServer.Task.PastedJson
import BServer.Task.StatusZero
import BServer.Task.GroupServices
import BServer.Task.Worker
import BServer.Task.Outgoing
import BServer.Task.PublicService
import BServer.Task.AnyEncoding
import BServer.Task.Base64
import BServer.System.World
import BServer.System.SlotOwnership
import BServer.System.ReplyRouting
import BServer.System.LiveBindings
import BServer.System.ServerList
import BServer.System.Connected
import BServer.System.SlotIds
import BServer.System.Heartbeat
import BServer.System.Convergence
import BServer.System.Startup
import BServer.System.Reconnect
import BServer.System.Recovery
import BServer.System.Delisted
import BServer.System.Registration
import BServer.System.IoServiceProvide
import BServer.System.Serving
import BServer.System.ServedOnce
import BServer.System.Drained
import BServer.System.Links
import BServer.System.Arrivals
import BServer.System.Locks
