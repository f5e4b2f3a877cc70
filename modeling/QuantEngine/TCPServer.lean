import QuantEngine.Library.Distinct
import QuantEngine.SocketUtils
import QuantEngine.TCPSocket

/-!
# The TCP server

The model of `TCPServer`: the four lists of sockets, and what `listen`, `del`,
`poll` and `sendAndRecv` do to them.

A socket is the address of its `TCPSocket`. What `epoll_wait`, `accept`, the
other system calls and `new` return is an argument of the call that makes them.
The server's own part of the kernel is modelled: the interest list of `efd_`,
and the open descriptors. `epoll_wait` hands out at most as many events as it
was asked for, and writing more of them than `events_` has room for stops the
run. What is logged is left out, and so is what the finish callback does.
-/

namespace QuantEngine

open Distinct

def epollin : UInt32 := 0x1
def epollout : UInt32 := 0x4
def epollerr : UInt32 := 0x8
def epollhup : UInt32 := 0x10

/-- An `epoll_event` with the socket that `data.ptr` points to. -/
structure EpollEvent where
  events : UInt32
  socket : ℕ
  deriving DecidableEq, Repr

/-- The length of `events_`. -/
def eventsLength : ℕ := 1024

structure TCPServer where
  efd : Int32 := -1
  /-- The address of `listener_socket_`. -/
  listenerSocket : ℕ
  sockets : List ℕ := []
  receiveSockets : List ℕ := []
  sendSockets : List ℕ := []
  disconnectedSockets : List ℕ := []
  /-- The addresses that `new TCPSocket` has returned. -/
  heap : List ℕ := []
  /-- `fd_` of each socket. -/
  fd : ℕ → Int32 := fun _ => -1
  /-- The buffers of each socket. -/
  traffic : ℕ → TCPSocket.Traffic
  /-- The interest list of `efd_`. -/
  registered : List ℕ := []
  resources : Resources := {}

namespace TCPServer

abbrev ServerM := EStateM Fault TCPServer

/-- The constructor, in a process that holds these resources. -/
def new (listenerSocket : ℕ) (traffic : ℕ → TCPSocket.Traffic) (resources : Resources) :
    TCPServer where
  listenerSocket := listenerSocket
  traffic := traffic
  resources := resources

def assert (condition : Bool) (message : String) : ServerM PUnit :=
  if condition then pure ⟨⟩ else throw (.assertFailed message)

/-- `epoll_add`, where `result` is what `epoll_ctl` returns. -/
def epollAdd (result : Int32) (socket : ℕ) : ServerM Bool := do
  modify fun server => { server with
    registered :=
      if result ≠ -1 then pushNew socket server.registered else server.registered }
  pure (result ≠ -1)

/-- `epoll_del`, whose result `del` does not look at. -/
def epollDel (result : Int32) (socket : ℕ) (server : TCPServer) : TCPServer :=
  { server with
    registered :=
      if result ≠ -1 then removeAll socket server.registered else server.registered }

def del (result : Int32) (socket : ℕ) (server : TCPServer) : TCPServer :=
  let server := server.epollDel result socket
  { server with
    sockets := removeAll socket server.sockets
    receiveSockets := removeAll socket server.receiveSockets
    sendSockets := removeAll socket server.sendSockets }

def closeDescriptor (fd : Int32) (resources : Resources) : Resources :=
  { resources with openDescriptors := resources.openDescriptors.erase fd }

/-- `close`; the interest list goes with `efd_`. -/
def close (server : TCPServer) : TCPServer :=
  { server with
    efd := -1
    registered := []
    fd := Function.update server.fd server.listenerSocket (-1)
    resources := TCPSocket.close (server.fd server.listenerSocket)
      (closeDescriptor server.efd server.resources) }

/-- `epoll_create`, which returns `efd`. -/
def epollCreate (efd : Int32) (server : TCPServer) : TCPServer :=
  { server with
    efd := efd
    resources :=
      if efd ≠ -1 then
        { server.resources with openDescriptors := efd :: server.resources.openDescriptors }
      else server.resources }

/-- `listener_socket_.connect("", iface, port, true)` -/
def connectListener (network : Network) (iface : String) (port : Int32)
    (server : TCPServer) : TCPServer :=
  let outcome := TCPSocket.connect network "" iface port true (server.fd server.listenerSocket)
    server.resources
  { server with
    fd := Function.update server.fd server.listenerSocket outcome.1
    resources := outcome.2 }

/-- `listen`, where `efd` and `added` are what `epoll_create` and `epoll_ctl` return and `error` is
the text of `errno`. -/
def listen (network : Network) (iface : String) (port efd added : Int32) (error : String) :
    ServerM PUnit := do
  modify close
  modify (epollCreate efd)
  assert (0 ≤ efd) ("epoll_create() failed error:" ++ error)
  modify (connectListener network iface port)
  let server ← get
  assert (0 ≤ server.fd server.listenerSocket)
    ("Listener socket failed to connect. iface:" ++ iface ++ " port:" ++ toString port ++
      " error:" ++ error)
  let registers ← epollAdd added server.listenerSocket
  assert registers ("epoll_ctl() failed. error:" ++ error)

/-- A connection that `accept` returns, with what the calls made for it return. -/
structure Accepted where
  fd : Int32
  /-- `fcntl` with `F_GETFL`. -/
  getFlags : Int32
  /-- `fcntl` with `F_SETFL`. -/
  setFlags : Int32
  /-- `setsockopt` with `TCP_NODELAY`. -/
  noDelay : Int32
  /-- The address that `new TCPSocket` returns. -/
  socket : ℕ
  /-- What the new buffers hold. -/
  sendBuffer : ℕ → UInt8
  recvBuffer : ℕ → UInt8
  /-- `epoll_ctl` with `EPOLL_CTL_ADD`. -/
  added : Int32
  /-- The text of `errno`. -/
  error : String

/-- What the kernel answers to a `poll`. -/
structure PollResults where
  /-- `epoll_ctl` with `EPOLL_CTL_DEL`. -/
  deleted : ℕ → Int32
  /-- The events that are ready. -/
  ready : List EpollEvent
  /-- The connections that `accept` returns before it returns -1. -/
  accepted : List Accepted

/-- `max_events`, a `size_t` that is narrowed. -/
def maxEvents (server : TCPServer) : Int32 := Int32.ofNat (1 + server.sockets.length)

/-- The sockets in `disconnected_sockets_` are deleted, and stay in it. -/
def cleanup (deleted : ℕ → Int32) (server : TCPServer) : TCPServer :=
  server.disconnectedSockets.foldl (fun server socket => server.del (deleted socket) socket) server

/-- `epoll_wait`; it fails for a `max_events` that is not positive. -/
def epollWait (maxEvents : Int32) (ready : List EpollEvent) : ServerM (List EpollEvent) :=
  let events := ready.take maxEvents.toNatClampNeg
  if events.length ≤ eventsLength then pure events else throw .outOfRange

/-- The event sets `have_new_connection`, and the loop goes on to the next one. -/
def announces (listenerSocket : ℕ) (event : EpollEvent) : Bool :=
  event.events &&& epollin ≠ 0 && event.socket = listenerSocket

def handleEvent (server : TCPServer) (event : EpollEvent) : TCPServer :=
  if announces server.listenerSocket event then server
  else { server with
    receiveSockets :=
      if event.events &&& epollin ≠ 0 then pushNew event.socket server.receiveSockets
      else server.receiveSockets
    sendSockets :=
      if event.events &&& epollout ≠ 0 then pushNew event.socket server.sendSockets
      else server.sendSockets
    disconnectedSockets :=
      if event.events &&& (epollerr ||| epollhup) ≠ 0 then
        pushNew event.socket server.disconnectedSockets
      else server.disconnectedSockets }

/-- `new TCPSocket` and `setFd`, which closes nothing because the new `fd_` is -1. -/
def newSocket (accepted : Accepted) (server : TCPServer) : TCPServer :=
  { server with
    heap := accepted.socket :: server.heap
    fd := Function.update server.fd accepted.socket accepted.fd
    traffic := Function.update server.traffic accepted.socket
      (TCPSocket.new accepted.sendBuffer accepted.recvBuffer) }

def acceptOne (accepted : Accepted) : ServerM PUnit := do
  modify fun server => { server with
    resources := { server.resources with
      openDescriptors := accepted.fd :: server.resources.openDescriptors } }
  assert (SocketUtils.setNonBlocking accepted.getFlags accepted.setFlags &&
      SocketUtils.setNoDelay accepted.noDelay)
    ("Failed to set non-blocking or no-delay on socket:" ++ toString accepted.fd)
  modify (newSocket accepted)
  let registers ← epollAdd accepted.added accepted.socket
  assert registers ("Unable to add socket error" ++ accepted.error)
  modify fun server => { server with
    sockets := pushNew accepted.socket server.sockets
    receiveSockets := pushNew accepted.socket server.receiveSockets }

def acceptAll : List Accepted → ServerM PUnit
  | [] => pure ⟨⟩
  | accepted :: rest => do
      acceptOne accepted
      acceptAll rest

def poll (kernel : PollResults) : ServerM PUnit := do
  let server ← get
  let maxEvents := server.maxEvents
  modify (cleanup kernel.deleted)
  let events ← epollWait maxEvents kernel.ready
  modify fun server => events.foldl handleEvent server
  if events.any (announces server.listenerSocket) then acceptAll kernel.accepted
  else pure ⟨⟩

/-- What the system calls of a socket's `sendAndRecv` find, and what its callback calls. -/
structure Transfer where
  arrived : Option (List UInt8)
  callback : List TCPSocket.CallbackCall
  room : Option ℕ

/-- `socket->sendAndRecv()` -/
def transferOn (transfer : Transfer) (socket : ℕ) : ServerM Bool := fun server =>
  let withTraffic (traffic : TCPSocket.Traffic) : TCPServer :=
    { server with traffic := Function.update server.traffic socket traffic }
  match TCPSocket.sendAndRecv transfer.arrived transfer.callback transfer.room
      (server.traffic socket) with
  | .ok received traffic => .ok received (withTraffic traffic)
  | .error fault traffic => .error fault (withTraffic traffic)

/-- A loop over sockets; the result says whether one of them received something. -/
def transferAll (transfers : ℕ → Transfer) : List ℕ → ServerM Bool
  | [] => pure false
  | socket :: rest => do
      let received ← transferOn (transfers socket) socket
      let others ← transferAll transfers rest
      pure (received || others)

/-- `sendAndRecv`; the result says whether `recv_finished_callback_` is called. -/
def sendAndRecv (incoming outgoing : ℕ → Transfer) : ServerM Bool := do
  let recv ← transferAll incoming (← get).receiveSockets
  let _ ← transferAll outgoing (← get).sendSockets
  pure recv

/-- A call on the server, with what its system calls return. -/
inductive Op where
  | poll (kernel : PollResults)
  | del (result : Int32) (socket : ℕ)
  | sendAndRecv (incoming outgoing : ℕ → Transfer)

def Op.run : Op → ServerM PUnit
  | .poll kernel => TCPServer.poll kernel
  | .del result socket => modify (TCPServer.del result socket)
  | .sendAndRecv incoming outgoing => do
      let _ ← TCPServer.sendAndRecv incoming outgoing
      pure ⟨⟩

end TCPServer

end QuantEngine
