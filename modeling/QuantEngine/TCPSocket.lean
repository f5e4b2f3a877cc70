import QuantEngine.Library.Buffer
import QuantEngine.Library.Exec
import QuantEngine.Types

/-!
# The TCP socket

The model of the two buffers of `TCPSocket`, of `send` and of `sendAndRecv`.

`recvmsg` and `::send` belong to the kernel. What they find there is an
argument: an error, or the bytes that have arrived and the number of bytes that
can be accepted. `recvmsg` hands out at most the length it was offered, and
`::send` accepts at most the length it was given. The receive callback is the
list of the calls it makes on the socket; the time stamp it is given, and what
is logged, do not reach the buffers.

A write beyond the end of a buffer stops the run.
-/

namespace QuantEngine

/-- `TCPBufferSize`. -/
def tcpBufferSize : ℕ := 64 * 1024 * 1024

/-- The buffers of a `TCPSocket` and their indices. -/
structure TCPSocket where
  sendBuffer : ℕ → UInt8
  nextSendValidIndex : UInt64 := 0
  recvBuffer : ℕ → UInt8
  nextRecvValidIndex : UInt64 := 0

namespace TCPSocket

/-- A socket with a record of the bytes that went through it. -/
structure Traffic where
  socket : TCPSocket
  /-- The bytes passed to `send`, as its callers know them. -/
  passed : List UInt8 := []
  /-- The bytes the kernel accepted. -/
  accepted : List UInt8 := []
  /-- The bytes received since the index was last reset. -/
  received : List UInt8 := []

abbrev SocketM := EStateM Fault Traffic

/-- The constructor. What `new char[TCPBufferSize]` leaves in a buffer is not determined. -/
def new (sendBuffer recvBuffer : ℕ → UInt8) : Traffic where
  socket := { sendBuffer := sendBuffer, recvBuffer := recvBuffer }

/-- Copies `data` into a buffer of `TCPBufferSize` bytes. -/
def copyInto (buffer : ℕ → UInt8) (index : UInt64) (data : List UInt8) :
    SocketM (ℕ → UInt8) :=
  if index.toNat + data.length ≤ tcpBufferSize then pure (Buffer.write buffer index.toNat data)
  else throw .outOfRange

/-- `send`, whose argument `len` is the length of the data. -/
def send (data : List UInt8) : SocketM PUnit := do
  let traffic ← get
  if 0 < data.length then do
    let buffer ← copyInto traffic.socket.sendBuffer traffic.socket.nextSendValidIndex data
    set { traffic with
      socket := { traffic.socket with
        sendBuffer := buffer
        nextSendValidIndex :=
          traffic.socket.nextSendValidIndex + UInt64.ofNat data.length } }
  else pure ⟨⟩

/-- The data on record as passed to `send`. -/
def Traffic.passing (traffic : Traffic) (data : List UInt8) : Traffic :=
  { traffic with passed := traffic.passed ++ data }

/-- A call of `send`; its caller puts the data on record first. -/
def callSend (data : List UInt8) : SocketM PUnit := do
  modify fun traffic => traffic.passing data
  send data

def setNextRecvValidIndex (index : Int32) : SocketM PUnit :=
  modify fun traffic => { traffic with
    socket := { traffic.socket with nextRecvValidIndex := index.toInt64.toUInt64 } }

/-- A call of the receive callback on its socket. -/
inductive CallbackCall where
  | send (data : List UInt8)
  /-- `setNextRecvValidIndex(0)` -/
  | reset

def CallbackCall.run : CallbackCall → SocketM PUnit
  | .send data => callSend data
  | .reset => do
      setNextRecvValidIndex 0
      modify fun traffic => { traffic with received := [] }

def recvCallback : List CallbackCall → SocketM PUnit
  | [] => pure ⟨⟩
  | call :: calls => do
      call.run
      recvCallback calls

/-- `iov.iov_len`, an unsigned difference. -/
def offered (socket : TCPSocket) : UInt64 := UInt64.ofNat tcpBufferSize - socket.nextRecvValidIndex

/-- `recvmsg` into the rest of `recv_buffer_`, and its result. -/
def recvmsg (arrived : Option (List UInt8)) : SocketM Int64 := do
  let traffic ← get
  match arrived with
  | none => pure (-1)
  | some waiting => do
      let data := waiting.take traffic.socket.offered.toNat
      let buffer ← copyInto traffic.socket.recvBuffer traffic.socket.nextRecvValidIndex data
      set { traffic with
        socket := { traffic.socket with recvBuffer := buffer }
        received := traffic.received ++ data }
      pure (Int64.ofNat data.length)

/-- `::send` of the first bytes of `send_buffer_`, and its result. -/
def kernelSend (room : Option ℕ) : SocketM Int64 := do
  let traffic ← get
  match room with
  | none => pure (-1)
  | some room => do
      let data := (Buffer.contents traffic.socket.sendBuffer
        traffic.socket.nextSendValidIndex.toNat).take room
      set { traffic with accepted := traffic.accepted ++ data }
      pure (Int64.ofNat data.length)

/-- The first half of `sendAndRecv`, up to the return of the callback. -/
def receive (arrived : Option (List UInt8)) (callback : List CallbackCall) : SocketM Int64 := do
  let nRecv ← recvmsg arrived
  if 0 < nRecv then do
    modify fun traffic => { traffic with
      socket := { traffic.socket with
        nextRecvValidIndex := traffic.socket.nextRecvValidIndex + nRecv.toUInt64 } }
    recvCallback callback
    pure nRecv
  else pure nRecv

/-- The second half of `sendAndRecv`. The result of `::send` is signed and is compared with the
unsigned index. -/
def flush (room : Option ℕ) : SocketM PUnit := do
  let traffic ← get
  if 0 < traffic.socket.nextSendValidIndex then do
    let n ← kernelSend room
    if n.toUInt64 = traffic.socket.nextSendValidIndex then pure ⟨⟩
    else throw (.assertFailed "Could not send all the send buffer")
  else pure ⟨⟩
  modify fun traffic => { traffic with
    socket := { traffic.socket with nextSendValidIndex := 0 } }

def sendAndRecv (arrived : Option (List UInt8)) (callback : List CallbackCall)
    (room : Option ℕ) : SocketM Bool := do
  let nRecv ← receive arrived callback
  flush room
  pure (decide (0 < nRecv))

/-- `getRecvData` with its default argument. -/
def getRecvData (socket : TCPSocket) : List UInt8 :=
  Buffer.contents socket.recvBuffer socket.nextRecvValidIndex.toNat

/-- `getSendData` with its default argument. -/
def getSendData (socket : TCPSocket) : List UInt8 :=
  Buffer.contents socket.sendBuffer socket.nextSendValidIndex.toNat

/-- A call on the socket, with what its system calls find. -/
inductive Op where
  | send (data : List UInt8)
  | sendAndRecv (arrived : Option (List UInt8)) (callback : List CallbackCall)
      (room : Option ℕ)

def Op.run : Op → SocketM PUnit
  | .send data => callSend data
  | .sendAndRecv arrived callback room => do
      let _ ← TCPSocket.sendAndRecv arrived callback room
      pure ⟨⟩

/-- The calls in order, up to the first that does not return. -/
def runAll : List Op → SocketM PUnit
  | [] => pure ⟨⟩
  | op :: ops => do
      op.run
      runAll ops

end TCPSocket

end QuantEngine
