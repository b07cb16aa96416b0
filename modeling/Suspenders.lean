import Suspenders.Base
import Suspenders.Lib.Run
import Suspenders.Lib.Scanf
import Suspenders.Lib.Compact
import Suspenders.Lib.Blit
import Suspenders.Lib.Blocks
import Suspenders.Lib.Ring
import Suspenders.Lib.Line
import Suspenders.Lib.Family
import Suspenders.Lib.Dlist
import Suspenders.Lib.Slist
import Suspenders.Lib.Pool
import Suspenders.Lib.Turnstile
import Suspenders.Lib.Prog
import Suspenders.Lib.Bytes
import Suspenders.Lib.Checked
import Suspenders.Lib.Count
import Suspenders.Lib.Cyclic
import Suspenders.Lib.MinHeap
import Suspenders.Lib.Framing
import Suspenders.Lib.Stack
import Suspenders.Lib.Memory
import Suspenders.Lib.Coswitch
import Suspenders.Lib.Ledger
import Suspenders.Lib.Malloc
import Suspenders.Io.Deadline
import Suspenders.Io.Poll
import Suspenders.Io.PollRegs
import Suspenders.Io.Submit
import Suspenders.Io.Uring
import Suspenders.Io.Lifecycle
import Suspenders.Io.Connect
import Suspenders.Io.Transport
import Suspenders.Io.Address
import Suspenders.Io.Write
import Suspenders.Io.PollTimeout
import Suspenders.Io.Buffer
import Suspenders.Io.Hoses
import Suspenders.Io.HoseOwners
import Suspenders.Io.HoseAccounts
import Suspenders.Io.HoseUses
import Suspenders.Io.PollMemory
import Suspenders.Io.Kqueue
import Suspenders.Wait.Node
import Suspenders.Wait.WaitList
import Suspenders.Wait.Channel
import Suspenders.Wait.Heap
import Suspenders.Wait.Proto
import Suspenders.Wait.Inv
import Suspenders.Wait.Footprint
import Suspenders.Wait.Window
import Suspenders.Wait.Decide
import Suspenders.Wait.Select
import Suspenders.Wait.Fifo
import Suspenders.Wait.Close
import Suspenders.Wait.Storage
import Suspenders.Wait.Scan
import Suspenders.Wait.SelectLoop
import Suspenders.Sched.Runtime
import Suspenders.Sched.Inv
import Suspenders.Sched.Wakeup
import Suspenders.Sched.Handshake
import Suspenders.Sched.TimerHeap
import Suspenders.Sched.Timer
import Suspenders.Sched.Timeout
import Suspenders.Sched.Sleep
import Suspenders.Sched.TimerStore
import Suspenders.Sched.Expire
import Suspenders.Sched.TimerCancel
import Suspenders.Sched.Cancel
import Suspenders.Sched.Delivery
import Suspenders.Sched.Startup
import Suspenders.Sched.StartupOwners
import Suspenders.Sched.Join
import Suspenders.Coro.Place
import Suspenders.Coro.Linked
import Suspenders.Coro.Ready
import Suspenders.Coro.Resume
import Suspenders.Coro.Inbox
import Suspenders.Coro.InboxDelivery
import Suspenders.Coro.Cleanup
import Suspenders.Coro.Exit
import Suspenders.Coro.Arena
import Suspenders.Context.X86
import Suspenders.Context.Aarch64
import Suspenders.Idle.State
import Suspenders.Idle.Kick
import Suspenders.Idle.Complete
import Suspenders.Queue.State
import Suspenders.Queue.Lists
import Suspenders.Queue.Once
import Suspenders.Queue.Drainers
import Suspenders.Queue.Barrier
import Suspenders.Queue.Gate
import Suspenders.Queue.Order
import Suspenders.Queue.Retry
import Suspenders.Queue.Work
import Suspenders.Queue.Progress
import Suspenders.Queue.Served
import Suspenders.Queue.Pool
import Suspenders.Sync.Ticket
import Suspenders.Sync.Step
import Suspenders.Sync.Owner
import Suspenders.Sync.History
import Suspenders.Sync.Mutex
import Suspenders.Sync.Cond
import Suspenders.Sync.Guard
import Suspenders.Sync.Waitgroup
import Suspenders.Sync.Rwlock
import Suspenders.Sync.RwQueue
import Suspenders.Sync.Qos
import Suspenders.Sync.Boost
import Suspenders.Quic.Varint
import Suspenders.Quic.Codec
import Suspenders.Quic.Stream
import Suspenders.Quic.Conn
import Suspenders.Quic.Message
import Suspenders.Quic.Packet
import Suspenders.Quic.Endpoint
import Suspenders.Quic.Moves
import Suspenders.Quic.Level
import Suspenders.Quic.Acked
import Suspenders.Quic.Discard
import Suspenders.Quic.Flight
import Suspenders.Quic.Auth
import Suspenders.Quic.Open
import Suspenders.Quic.Parse
import Suspenders.Quic.Deliver
import Suspenders.Quic.Agree
import Suspenders.Quic.Replay
import Suspenders.Quic.Ack
import Suspenders.Quic.Nonce
import Suspenders.Quic.RoundTrip
import Suspenders.Quic.Params
import Suspenders.Quic.Scan
import Suspenders.Quic.Bounds
import Suspenders.Quic.Receive
import Suspenders.Quic.Reassembly
import Suspenders.Quic.Write
import Suspenders.Quic.EndToEnd
