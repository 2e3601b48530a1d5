import ComponentsNetwork.HTTP.SessionTheorems
import ComponentsNetwork.HTTP.ClientTheorems
import ComponentsNetwork.HTTP.SessionControl
import ComponentsNetwork.UDP.ClientTheorems
import ComponentsNetwork.UDP.ServerTheorems
import ComponentsNetwork.WebSocket.SessionTheorems
import ComponentsNetwork.WebSockets.ClientTheorems
import ComponentsNetwork.WebSockets.PingTheorems
import ComponentsNetwork.HTTP.DeadlineTheorems
import ComponentsNetwork.HTTP.Server
import ComponentsNetwork.HTTP.ServerTheorems
import ComponentsNetwork.HTTP.ClientAnswers
import ComponentsNetwork.Lib.Chunks
import ComponentsNetwork.Transport.Packet
import ComponentsNetwork.Transport.PacketTheorems
import ComponentsNetwork.Lib.Numerals
import ComponentsNetwork.Transport.TextCodec
import ComponentsNetwork.Lib.Reassembly
import ComponentsNetwork.Transport.ConnectionSession
import ComponentsNetwork.Transport.SessionTheorems
import ComponentsNetwork.Transport.ReassemblyTheorems
import ComponentsNetwork.Transport.Client
import ComponentsNetwork.Transport.ClientTheorems
import ComponentsNetwork.Transport.ResponseTheorems
import ComponentsNetwork.Transport.TokenTheorems
import ComponentsNetwork.WebSockets.Server
import ComponentsNetwork.WebSockets.ServerTheorems
import ComponentsNetwork.WebSockets.ListenTheorems
import ComponentsNetwork.WebSocket.ContactTheorems
import ComponentsNetwork.WebSocket.EndTheorems
import ComponentsNetwork.WebSockets.LoopTheorems
import ComponentsNetwork.Socket.CloseTheorems
import ComponentsNetwork.Socket.LineTheorems
import ComponentsNetwork.UDP.ReceiveTheorems
import ComponentsNetwork.Legacy.ThreadManager
import ComponentsNetwork.Legacy.ThreadManagerTheorems
import ComponentsNetwork.HTTP.RoutingTheorems
import ComponentsNetwork.HTTP.Ownership
import ComponentsNetwork.HTTP.OwnershipTheorems
import ComponentsNetwork.HTTP.ResponseTheorems
import ComponentsNetwork.UDP.StartTheorems
import ComponentsNetwork.HTTP.DownloadTheorems
import ComponentsNetwork.HTTP.ReconnectTheorems
import ComponentsNetwork.Transport.RejectionTheorems
import ComponentsNetwork.HTTP.ServerSessions
import ComponentsNetwork.HTTP.Conversation
import ComponentsNetwork.HTTP.ConversationTheorems
import ComponentsNetwork.HTTP.ConversationAnswers
import ComponentsNetwork.Legacy.Exchange
import ComponentsNetwork.Legacy.ExchangeTheorems
import ComponentsNetwork.Legacy.ArchiveCodec
import ComponentsNetwork.Lib.Datagrams
import ComponentsNetwork.UDP.Network
import ComponentsNetwork.UDP.NetworkTheorems
import ComponentsNetwork.Transport.Server
import ComponentsNetwork.Transport.ServerTheorems
import ComponentsNetwork.Transport.RequestTheorems
import ComponentsNetwork.Transport.Exchange
import ComponentsNetwork.Transport.ExchangeTheorems
import ComponentsNetwork.Legacy.HttpServer
import ComponentsNetwork.Legacy.HttpServerEffects
import ComponentsNetwork.Legacy.HttpServerTheorems
import ComponentsNetwork.Legacy.TcpServer
import ComponentsNetwork.Legacy.TcpServerTheorems
import ComponentsNetwork.Legacy.TcpSlotTheorems
import ComponentsNetwork.Legacy.UdpExchange
import ComponentsNetwork.Legacy.UdpExchangeTheorems
import ComponentsNetwork.HTTP.ServerLifecycle
import ComponentsNetwork.HTTP.LifecycleTheorems
