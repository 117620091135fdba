import Ctcp.Lib.Runs
import Ctcp.Outcome
import Ctcp.Lib.History
import Ctcp.Reach
import Ctcp.Slot
import Ctcp.Acknowledge
import Ctcp.Closing
import Ctcp.OneFin
import Ctcp.Destroy
import Ctcp.EndOfStream
import Ctcp.Lib.Pipe
import Ctcp.Sender
import Ctcp.Network
import Ctcp.Lib.BackLinked
import Ctcp.StateList
import Ctcp.Retransmit
import Ctcp.Tiling
import Ctcp.InputKept
import Ctcp.Consume
import Ctcp.StopAndWait
import Ctcp.ConnTable
import Ctcp.Admission
import Ctcp.Lib.TailQueue
import Ctcp.OutQueue
import Ctcp.PollMask
import Ctcp.Lib.OnesSum
import Ctcp.Checksum
import Ctcp.Packet
import Ctcp.AckMonotone
import Ctcp.Lib.Ticks
import Ctcp.Timeout
import Ctcp.Reack
import Ctcp.HeaderLength
import Ctcp.Lib.Checked
import Ctcp.PacketBounds
import Ctcp.MainLoop
import Ctcp.HostInv
import Ctcp.Dispatch
import Ctcp.NewConnection
import Ctcp.RecvFilter
import Ctcp.LinkedList
import Ctcp.StateLifetimes
import Ctcp.InternetChecksum
import Ctcp.TimerCheck
import Ctcp.WebInput
import Ctcp.ClientLoop
import Ctcp.ConnSend
import Ctcp.Drains
import Ctcp.PacketNet
import Ctcp.Terminal
import Ctcp.System
import Ctcp.Lib.Members
import Ctcp.Projection
import Ctcp.Session
import Ctcp.ManyClients
import Ctcp.Resume
import Ctcp.Lib.Numeral
import Ctcp.Log
import Ctcp.Lib.Blocks
import Ctcp.Pointers
import Ctcp.Memory
