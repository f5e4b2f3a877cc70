import QuantEngine.Library.Exec
import QuantEngine.Types

/-!
# Creating a socket

The model of `socket_utils.cpp` and of how a `TCPSocket` obtains its descriptor.

The system calls belong to the kernel and to the C library. What they find is
an argument: the network interfaces, the addresses that `getaddrinfo` returns,
and for every address the results of the calls that `createSocket` makes for it,
where -1 is a failure. What the code itself decides is modelled: which calls are
made, in which order, and when it gives up. Of the process only the descriptors
and the address lists it holds matter here.
-/

namespace QuantEngine

/-- An entry of the list of `getifaddrs`. -/
structure Interface where
  name : String
  /-- The family of `ifa_addr`, unless that is null. -/
  family : Option Int32
  /-- What `getnameinfo` writes for the address. -/
  host : String

/-- The fields of `hints` that are set. -/
structure Hints where
  family : Int32
  socktype : Int32
  protocol : Int32
  flags : Int32
  deriving DecidableEq, Repr

/-- The results of the system calls for one address. -/
structure AddressCalls where
  socket : Int32
  /-- `fcntl` with `F_GETFL`. -/
  getFlags : Int32
  /-- `fcntl` with `F_SETFL`. -/
  setFlags : Int32
  /-- `setsockopt` with `TCP_NODELAY`. -/
  noDelay : Int32
  connect : Int32
  /-- `errno` after `connect`. -/
  errno : Int32
  /-- `setsockopt` with `SO_REUSEADDR`. -/
  reuseAddr : Int32
  bind : Int32
  listen : Int32
  /-- `setsockopt` with `IP_MULTICAST_TTL`. -/
  mcastTtl : Int32
  /-- `setsockopt` with `IP_TTL`. -/
  ttl : Int32
  /-- `setsockopt` with `SO_TIMESTAMP`. -/
  soTimestamp : Int32

structure Network where
  /-- The list of `getifaddrs`, unless it fails. -/
  interfaces : Option (List Interface)
  /-- `getaddrinfo` for a node, a service and hints: its error code, or the addresses. -/
  getaddrinfo : String → String → Hints → Except Int32 (List AddressCalls)

/-- The arguments of `createSocket`. -/
structure SocketArgs where
  ip : String
  iface : String
  port : Int32
  isUdp : Bool
  isBlocking : Bool
  isListening : Bool
  ttl : Int32
  needsSoTimestamp : Bool
  deriving DecidableEq, Repr

/-- What the process holds of the kernel and of the C library. -/
structure Resources where
  /-- The open descriptors, the last one opened first. -/
  openDescriptors : List Int32 := []
  /-- The number of address lists that were allocated and not freed. -/
  addressLists : ℕ := 0
  deriving DecidableEq, Repr

namespace SocketUtils

def afInet : Int32 := 2
def sockStream : Int32 := 1
def sockDgram : Int32 := 2
def ipprotoTcp : Int32 := 6
def ipprotoUdp : Int32 := 17
def aiPassive : Int32 := 0x1
def aiNumerichost : Int32 := 0x4
def aiNumericserv : Int32 := 0x400
def oNonblock : Int32 := 0x800
def ewouldblock : Int32 := 11
def einprogress : Int32 := 115

/-- `std::isdigit(text.c_str()[0])` -/
def startsWithDigit (text : String) : Bool :=
  match text.toList with
  | [] => false
  | first :: _ => first.isDigit

def isspace (c : Char) : Bool := c.toNat = 32 || (9 ≤ c.toNat && c.toNat ≤ 13)

def decimalPrefix (text : List Char) : Int32 :=
  Int32.ofNat ((text.takeWhile Char.isDigit).foldl
    (fun value digit => 10 * value + (digit.toNat - 48)) 0)

def atoi (text : String) : Int32 :=
  match text.toList.dropWhile isspace with
  | '-' :: digits => -decimalPrefix digits
  | '+' :: digits => decimalPrefix digits
  | digits => decimalPrefix digits

/-- The address of the first interface of this name that has an IPv4 address. -/
def getIfaceIP (interfaces : Option (List Interface)) (iface : String) : String :=
  match interfaces with
  | none => ""
  | some interfaces =>
      match interfaces.find? fun entry => entry.family = some afInet && iface = entry.name with
      | none => ""
      | some entry => entry.host

def setNonBlocking (getFlags setFlags : Int32) : Bool :=
  if getFlags = -1 then false
  else if getFlags &&& oNonblock ≠ 0 then true
  else setFlags ≠ -1

def setNoDelay (result : Int32) : Bool := result ≠ -1
def wouldBlock (errno : Int32) : Bool := errno = ewouldblock || errno = einprogress
def setTTL (result : Int32) : Bool := result ≠ -1
def setMcastTTL (result : Int32) : Bool := result ≠ -1
def setSOTimestamp (result : Int32) : Bool := result ≠ -1

def isMulticast (ip : String) : Bool := atoi ip &&& 0xe0 ≠ 0

def hintsFor (args : SocketArgs) (ip : String) : Hints where
  family := afInet
  socktype := if args.isUdp then sockDgram else sockStream
  protocol := if args.isUdp then ipprotoUdp else ipprotoTcp
  flags :=
    (if args.isListening then aiPassive else 0) |||
      (if startsWithDigit ip then aiNumerichost else 0) ||| aiNumericserv

/-- Code that may log a message and return -1; the exception is the format of the message. -/
abbrev SetupM := EStateM String Resources

def failIf (failed : Bool) (message : String) : SetupM PUnit :=
  if failed then throw message else pure ⟨⟩

/-- What is done with the descriptor of one address, once `socket` has opened it. The enclosing
conditions of a call stand beside its own. -/
def configure (args : SocketArgs) (ip : String) (calls : AddressCalls) : SetupM PUnit := do
  failIf (!args.isBlocking && !setNonBlocking calls.getFlags calls.setFlags)
    "setNonBlocking() failed. errno:%\n"
  failIf (!args.isBlocking && !args.isUdp && !setNoDelay calls.noDelay)
    "setNoDelay() failed. errno:%\n"
  failIf (!args.isListening && calls.connect = -1 && !wouldBlock calls.errno)
    "connect() failed. errno:%\n"
  failIf (args.isListening && calls.reuseAddr = -1) "setsockopt() SO_REUSEADDR failed. errno:%\n"
  failIf (args.isListening && calls.bind = -1) "bind() failed. errno:%\n"
  failIf (!args.isUdp && args.isListening && calls.listen = -1) "listen() failed. errno:%\n"
  failIf (args.isUdp && args.ttl ≠ 0 && isMulticast ip && !setMcastTTL calls.mcastTtl)
    "setMcastTTL() failed. errno:%\n"
  failIf (args.isUdp && args.ttl ≠ 0 && !isMulticast ip && !setTTL calls.ttl)
    "setTTL() failed. errno:%\n"
  failIf (args.needsSoTimestamp && !setSOTimestamp calls.soTimestamp)
    "setSOTimestamp() failed. errno:%\n"

/-- The loop over the addresses, entered with the `fd` of the address before. -/
def createSocketLoop (args : SocketArgs) (ip : String) : Int32 → List AddressCalls → SetupM Int32
  | fd, [] => pure fd
  | _, calls :: rest => do
      let fd := calls.socket
      failIf (fd = -1) "socket() failed. errno:%\n"
      modify fun resources =>
        { resources with openDescriptors := fd :: resources.openDescriptors }
      configure args ip calls
      createSocketLoop args ip fd rest

/-- The address that is resolved. -/
def addressOf (network : Network) (args : SocketArgs) : String :=
  if args.ip.isEmpty then getIfaceIP network.interfaces args.iface else args.ip

/-- What `getaddrinfo` returns to `createSocket`. -/
def resolve (network : Network) (args : SocketArgs) : Except Int32 (List AddressCalls) :=
  network.getaddrinfo (addressOf network args) (toString args.port)
    (hintsFor args (addressOf network args))

/-- `getaddrinfo` allocates the list that it returns, unless that is null. -/
def allocateList (addresses : List AddressCalls) (resources : Resources) : Resources :=
  if addresses.isEmpty then resources
  else { resources with addressLists := resources.addressLists + 1 }

/-- `if (result) freeaddrinfo(result)` -/
def freeList (addresses : List AddressCalls) (resources : Resources) : Resources :=
  if addresses.isEmpty then resources
  else { resources with addressLists := resources.addressLists - 1 }

def createSocketBody (network : Network) (args : SocketArgs) : SetupM Int32 :=
  match resolve network args with
  | .error _ => throw "getaddrinfo() failed. error:% errno:%\n"
  | .ok addresses => do
      modify (allocateList addresses)
      let fd ← createSocketLoop args (addressOf network args) (-1) addresses
      modify (freeList addresses)
      pure fd

/-- `createSocket` with the socket it returns, or -1. -/
def createSocket (network : Network) (args : SocketArgs) (resources : Resources) :
    Int32 × Resources :=
  match createSocketBody network args resources with
  | .ok fd last => (fd, last)
  | .error _ last => (-1, last)

end SocketUtils

namespace TCPSocket

/-- `close` for a socket with this `fd_`, which becomes -1. -/
def close (fd : Int32) (resources : Resources) : Resources :=
  if fd ≠ -1 then { resources with openDescriptors := resources.openDescriptors.erase fd }
  else resources

/-- `connect` for a socket with this `fd_`; the new `fd_` is returned. -/
def connect (network : Network) (ip iface : String) (port : Int32) (isListening : Bool)
    (fd : Int32) (resources : Resources) : Int32 × Resources :=
  SocketUtils.createSocket network {
    ip := ip
    iface := iface
    port := port
    isUdp := false
    isBlocking := false
    isListening := isListening
    ttl := 0
    needsSoTimestamp := true } (close fd resources)

end TCPSocket

end QuantEngine
