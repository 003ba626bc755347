import BidiWeb.Lib.Machine
import BidiWeb.Lib.Store
import BidiWeb.Lib.ReadableStream
import BidiWeb.Lib.BigEndian
import BidiWeb.Lib.Unicode
import BidiWeb.Lib.Json
import BidiWeb.Lib.JsObject
import BidiWeb.Lib.FetchHeaders
import BidiWeb.Lib.Callback
import BidiWeb.Wire.Envelope
import BidiWeb.Core.Wire
import BidiWeb.Core.HeadersFrame
import BidiWeb.Core.HandleBidiSocket
import BidiWeb.Core.AnsweredRequest
import BidiWeb.Core.HandleMuxedBidiSocket
import BidiWeb.Core.MuxedIsolation
import BidiWeb.Node.WebSocketDuplex
import BidiWeb.Wire.Splitter
import BidiWeb.Web.EnvelopeReader
import BidiWeb.Web.WebSocketMux
import BidiWeb.Web.SocketBinding
import BidiWeb.Web.ResponseDelivery
import BidiWeb.Wire.GoError
import BidiWeb.ConnectProtocol.GoJson
import BidiWeb.ConnectProtocol.Headers
import BidiWeb.ConnectProtocol.EndStream
import BidiWeb.ConnectProtocol.CompactJson
import BidiWeb.ConnectProtocol.RoundTrip
import BidiWeb.ConnectProtocol.CollidingKeys
import BidiWeb.ConnectProtocol.StatusRoundTrip
import BidiWeb.BidiProtocol.CallHeaders
import BidiWeb.BidiProtocol.RpcStatus
import BidiWeb.BidiProtocol.Options
import BidiWeb.BidiProtocol.Transfer
import BidiWeb.ConnectProtocol.Compression
import BidiWeb.BidiProtocol.Conn
import BidiWeb.BidiProtocol.ClientStream
import BidiWeb.BidiProtocol.ResponseEnd
import BidiWeb.BidiProtocol.Server
import BidiWeb.BidiProtocol.AnsweredRpc
import BidiWeb.ConnectWebSocket.MuxStream
import BidiWeb.BidiProtocol.RequestOrder
import BidiWeb.ConnectWebSocket.ReadEnvelope
import BidiWeb.ConnectWebSocket.MuxConn
import BidiWeb.ConnectWebSocket.Received
import BidiWeb.ConnectWebSocket.Written
import BidiWeb.ConnectWebSocket.StreamOrder
import BidiWeb.Core.RunningRpcs
import BidiWeb.ConnectWebSocket.ServerStreams
import BidiWeb.ConnectWebSocket.RunningHandlers
import BidiWeb.Lib.Window
import BidiWeb.Core.Demultiplexing
import BidiWeb.ConnectWebSocket.ResetLast
import BidiWeb.ConnectWebSocket.Abandoned
import BidiWeb.ConnectWebSocket.Backlog
import BidiWeb.StreamReuse
import BidiWeb.Web.RequestWriter
import BidiWeb.Web.SocketProgress
import BidiWeb.Web.StreamFrames
import BidiWeb.Web.ResponseBody
import BidiWeb.Lib.JsonText
import BidiWeb.Lib.Insertions
import BidiWeb.Lib.JsonReread
import BidiWeb.BidiProtocol.ServerTransfer
import BidiWeb.BidiProtocol.ClientTransfer
import BidiWeb.BidiProtocol.MessageTransfer
import BidiWeb.BidiProtocol.CodecChoice
import BidiWeb.BidiProtocol.Deadline
import BidiWeb.BidiProtocol.ReadLimit
import BidiWeb.BidiProtocol.RequestEnd
import BidiWeb.Lib.Uint8Array
import BidiWeb.Wire.StreamFrame
import BidiWeb.ConnectWebSocket.Framing
import BidiWeb.FrameFormat
import BidiWeb.BidiProtocol.EnvelopeIO
import BidiWeb.ConnectWebTransport.StreamConn
import BidiWeb.Lib.Reader
import BidiWeb.BidiProtocol.ResponseOrder
import BidiWeb.Web.RoutedEnvelopes
import BidiWeb.Web.CompressedResponse
import BidiWeb.Web.TransportCall
import BidiWeb.Web.ReleasedStreams
import BidiWeb.Web.AbortedStream
import BidiWeb.Web.RequestFailure
import BidiWeb.ConnectWebSocket.Registry
import BidiWeb.Core.AbortedRpcs
import BidiWeb.Cloudflare.WebSocketLike
import BidiWeb.Core.UnaryRequest
import BidiWeb.Lib.Stringify
import BidiWeb.ConnectProtocol.NilSlices
import BidiWeb.HeadersFormat
import BidiWeb.Core.HeadersRoundTrip
import BidiWeb.UnaryResponse
import BidiWeb.Core.UnaryFailure
import BidiWeb.BidiProtocol.MissingCallInfo
import BidiWeb.ConnectWebSocket.StreamIds
import BidiWeb.Web.WireIds
import BidiWeb.ConnectWebSocket.TransportProgress
import BidiWeb.Interop.Connections
import BidiWeb.ConnectWebTransport.Session
import BidiWeb.Interop.Calls
import BidiWeb.ConnectWebTransport.Calls
import BidiWeb.Interop.BrowserCalls
import BidiWeb.Interop.BrowserSessionCalls
