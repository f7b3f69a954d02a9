import Xmqtt.Message.DecodeSafety
import Xmqtt.Message.Edits
import Xmqtt.Message.EncodeSafety
import Xmqtt.Message.Grammar
import Xmqtt.Message.LengthPrefix
import Xmqtt.Message.PacketIds
import Xmqtt.Message.RemainingLength
import Xmqtt.Message.Reuse
import Xmqtt.Message.WholeFrame
import Xmqtt.Service.Cleanup
import Xmqtt.Service.Connections
import Xmqtt.Service.Cycles
import Xmqtt.Service.Delivery
import Xmqtt.Service.DownloadOrder
import Xmqtt.Service.Exchange
import Xmqtt.Service.Forwarding
import Xmqtt.Service.Framing
import Xmqtt.Service.Handshake
import Xmqtt.Service.Heartbeat
import Xmqtt.Service.MessageBuffer
import Xmqtt.Service.Processor
import Xmqtt.Service.ReceiveLoop
import Xmqtt.Service.Replies
import Xmqtt.Service.RingLocks
import Xmqtt.Service.RingSizes
import Xmqtt.Service.Routing
import Xmqtt.Service.Script
import Xmqtt.Service.Server
import Xmqtt.Service.Shutdown
import Xmqtt.Service.Timers
import Xmqtt.Service.WebsocketProxy
import Xmqtt.Service.WriterLeases
import Xmqtt.Sessions.ConnectCopy
import Xmqtt.Sessions.Progress
import Xmqtt.Sessions.Recorded
import Xmqtt.Sessions.WaitReport
import Xmqtt.Topics.Atomic
import Xmqtt.Topics.LiveRetained
import Xmqtt.Topics.NextLevel
import Xmqtt.Topics.Pruning
import Xmqtt.Topics.Resubscribe
