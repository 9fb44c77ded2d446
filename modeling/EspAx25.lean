import EspAx25.Types
import EspAx25.Cyclic
import EspAx25.History
import EspAx25.GoBackN
import EspAx25.Transducer
import EspAx25.Kiss
import EspAx25.KissSize
import EspAx25.Frame
import EspAx25.Codec
import EspAx25.Access
import EspAx25.Parser
import EspAx25.Conn.State
import EspAx25.Conn.Send
import EspAx25.Conn.Handlers
import EspAx25.Conn.Api
import EspAx25.Conn.Spec
import EspAx25.Conn.Machine
import EspAx25.Conn.Transfer
import EspAx25.Conn.Cases
import EspAx25.Conn.Window
import EspAx25.Conn.Session
import EspAx25.Conn.Replies
import EspAx25.Conn.Disconnect
import EspAx25.Conn.Busy
import EspAx25.Conn.Announce
import EspAx25.Conn.Timers
import EspAx25.Conn.TimerInv
import EspAx25.Conn.Concurrent
import EspAx25.Conn.Reentry
import EspAx25.Conn.Loss
import EspAx25.Conn.Order
import EspAx25.Conn.Log
import EspAx25.Conn.Drain
import EspAx25.Conn.Poll
import EspAx25.Conn.Retransmit
import EspAx25.Conn.Path
import EspAx25.Conn.Batch
import EspAx25.Link.Station
import EspAx25.Link.Reliable
import EspAx25.Transition
import EspAx25.Router.State
import EspAx25.Router.Route
import EspAx25.Router.Slots
import EspAx25.Router.Race
import EspAx25.Router.Removal
import EspAx25.Router.Relay
import EspAx25.Router.Chain
import EspAx25.Dispatcher.Machine
import EspAx25.Dispatcher.Book
import EspAx25.Dispatcher.Quiesce
import EspAx25.Dispatcher.Batch
import EspAx25.Memory
import EspAx25.Crash
import EspAx25.Overlay
import EspAx25.Tally
import EspAx25.Agwpe.Wire
import EspAx25.Agwpe.Length
import EspAx25.Agwpe.Callsign
import EspAx25.CallText
import EspAx25.Agwpe.Convert
import EspAx25.Agwpe.Sessions
import EspAx25.Agwpe.Identity
import EspAx25.Agwpe.Sweep
import EspAx25.Agwpe.Manager
import EspAx25.Agwpe.Refcount
import EspAx25.Agwpe.EntryPoints
import EspAx25.Agwpe.Callbacks
import EspAx25.Agwpe.Deadlock
import EspAx25.Agwpe.Retryout
import EspAx25.Config.Schema
import EspAx25.Config.State
import EspAx25.Config.Calls
import EspAx25.Config.Staging
import EspAx25.Config.View
import EspAx25.Config.Device
import EspAx25.Config.Recovery
import EspAx25.Config.Rollback
import EspAx25.BufferPool
import EspAx25.Tcp.Slot
import EspAx25.Tcp.Control
import EspAx25.Tcp.Items
import EspAx25.Tcp.Bytes
import EspAx25.Tcp.Reuse
import EspAx25.LogSink.Table
import EspAx25.LogSink.Owner
import EspAx25.LogSink.Steps
import EspAx25.LogSink.Apart
import EspAx25.Agwpe.Unproto
import EspAx25.Printing
import EspAx25.Agwpe.Monitor
import EspAx25.Agwpe.ClientData
import EspAx25.Agwpe.Rejected
import EspAx25.Config.Merge
import EspAx25.Config.Reading
import EspAx25.Config.IntegerText
import EspAx25.Config.IntSetting
import EspAx25.Scanning
import EspAx25.Buffered
import EspAx25.Config.Console
import EspAx25.Config.Listing
import EspAx25.Config.CommandLine
import EspAx25.Config.Dump
import EspAx25.Pieces
import EspAx25.Beacon
import EspAx25.Link.Exchange
import EspAx25.Link.Recovery
import EspAx25.Framing
import EspAx25.TcpClient.Machine
import EspAx25.TcpClient.Streams
import EspAx25.TcpClient.Peers
import EspAx25.KissDriver
import EspAx25.Uart
import EspAx25.Totals
import EspAx25.Router.Channel
import EspAx25.Outbox
import EspAx25.Agwpe.Replies
import EspAx25.Agwpe.Circuit
import EspAx25.Agwpe.CrossWait
