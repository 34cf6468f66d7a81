import KcpRs.Lib.Word
import KcpRs.Lib.Machine
import KcpRs.Lib.Latch
import KcpRs.Lib.Transducer
import KcpRs.Lib.LinkedMap
import KcpRs.Lib.Window
import KcpRs.Wire.Segment
import KcpRs.Wire.Payload
import KcpRs.Engine.State
import KcpRs.Engine.Send
import KcpRs.Engine.Receive
import KcpRs.Engine.Input
import KcpRs.Engine.Flush
import KcpRs.Engine.Packet
import KcpRs.Engine.Timer
import KcpRs.Engine.Stable
import KcpRs.Engine.Window
import KcpRs.Engine.Arrival
import KcpRs.Engine.Transfer
import KcpRs.Engine.Reassembly
import KcpRs.Engine.Message
import KcpRs.Engine.Outgoing
import KcpRs.Engine.Run
import KcpRs.Engine.Packing
import KcpRs.Engine.Probing
import KcpRs.Engine.Translation
import KcpRs.Protocol
import KcpRs.Calls
import KcpRs.Wrapper.Receiving
import KcpRs.Wrapper.Peeking
import KcpRs.Wrapper.Sending
import KcpRs.Stream.Task
import KcpRs.Stream.Run
import KcpRs.Stream.Moves
import KcpRs.Stream.Transition
import KcpRs.Stream.Placed
import KcpRs.Stream.FinFlag
import KcpRs.Stream.Candidate
import KcpRs.Stream.Start
import KcpRs.Stream.Engine
import KcpRs.Stream.Settled
import KcpRs.Stream.FinFrame
import KcpRs.Stream.Timer
import KcpRs.Stream.Sleep
import KcpRs.Stream.Deadline
import KcpRs.Stream.Agreement
import KcpRs.Stream.Ledger
import KcpRs.Stream.Conv
import KcpRs.Stream.Delivery
import KcpRs.Stream.Handshake
import KcpRs.Stream.Expiry
import KcpRs.Stream.Adapter
import KcpRs.Stream.Memory
import KcpRs.Stream.Storage
import KcpRs.Stream.Packing
import KcpRs.Stream.Panic
import KcpRs.Stream.Repair
import KcpRs.Stream.Closing
import KcpRs.Stream.HalfClose
import KcpRs.Listener.ConvCache
import KcpRs.Listener.Table
import KcpRs.Listener.Service
import KcpRs.Listener.Pairing
import KcpRs.Listener.Messages
import KcpRs.Listener.Admission
import KcpRs.Listener.Loop
import KcpRs.Listener.Draining
import KcpRs.Listener.Backlog
import KcpRs.Pair.Network
import KcpRs.Pair.Speech
import KcpRs.Pair.Frames
import KcpRs.Pair.Conveyance
import KcpRs.Pair.Flow
import KcpRs.Pair.Delivery
import KcpRs.Pair.LastFrame
import KcpRs.Pair.Loss
import KcpRs.Pair.Shutdown
import KcpRs.Pair.Acquaintance
import KcpRs.Pair.Reply
import KcpRs.Pair.Handshake
import KcpRs.Pair.Receipt
import KcpRs.Pair.Bytes
