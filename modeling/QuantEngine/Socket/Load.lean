import QuantEngine.TCPSocket

/-!
# The load of a socket's buffers

How many bytes are pending in the send buffer and unread in the receive buffer,
counted from the calls alone. A call on the socket does to the two buffers what
it does to the counts, as `Carries` relates them, until a `send` finds too little
room. A flush that the kernel does not take as a whole ends the process.
-/

namespace QuantEngine.TCPSocket

/-- The number of bytes in each buffer. -/
structure Load where
  pending : ℕ
  unread : ℕ

namespace Load

/-- The pending bytes and the data fit in the send buffer. -/
def Takes (load : Load) (data : List UInt8) : Prop := load.pending + data.length ≤ tcpBufferSize

instance (load : Load) (data : List UInt8) : Decidable (load.Takes data) :=
  inferInstanceAs (Decidable (_ ≤ _))

def send (load : Load) (data : List UInt8) : Load :=
  { load with pending := load.pending + data.length }

def CallFits (load : Load) : CallbackCall → Prop
  | .send data => load.Takes data
  | .reset => True

instance (load : Load) : (call : CallbackCall) → Decidable (load.CallFits call)
  | .send data => inferInstanceAs (Decidable (load.Takes data))
  | .reset => inferInstanceAs (Decidable True)

def call (load : Load) : CallbackCall → Load
  | .send data => load.send data
  | .reset => { load with unread := 0 }

/-- Every `send` of the callback finds room. -/
def CallbackFits : Load → List CallbackCall → Prop
  | _, [] => True
  | load, call :: calls => load.CallFits call ∧ (load.call call).CallbackFits calls

instance decidableCallbackFits : (load : Load) → (calls : List CallbackCall) →
    Decidable (load.CallbackFits calls)
  | _, [] => inferInstanceAs (Decidable True)
  | load, call :: calls =>
      haveI := decidableCallbackFits (load.call call) calls
      inferInstanceAs (Decidable (_ ∧ _))

def callback (load : Load) (calls : List CallbackCall) : Load := calls.foldl call load

/-- The bytes that `recvmsg` hands out. -/
def arrival (load : Load) : Option (List UInt8) → List UInt8
  | none => []
  | some waiting => waiting.take (tcpBufferSize - load.unread)

def receive (load : Load) (data : List UInt8) : Load :=
  { load with unread := load.unread + data.length }

/-- Every `send` of the call finds room; the callback runs if bytes arrive. -/
def Fits (load : Load) : Op → Prop
  | .send data => load.Takes data
  | .sendAndRecv arrived callback _ =>
      load.arrival arrived ≠ [] → (load.receive (load.arrival arrived)).CallbackFits callback

instance (load : Load) : (op : Op) → Decidable (load.Fits op)
  | .send data => inferInstanceAs (Decidable (load.Takes data))
  | .sendAndRecv _ _ _ => inferInstanceAs (Decidable (_ → _))

/-- The load when `sendAndRecv` comes to its flush. -/
def beforeFlush (load : Load) (arrived : Option (List UInt8)) (callback : List CallbackCall) :
    Load :=
  if load.arrival arrived = [] then load
  else (load.receive (load.arrival arrived)).callback callback

/-- The kernel takes all pending bytes. -/
def Flushes (load : Load) (room : Option ℕ) : Prop :=
  load.pending = 0 ∨ ∃ accepted ∈ room, load.pending ≤ accepted

instance (load : Load) (room : Option ℕ) : Decidable (load.Flushes room) :=
  match room with
  | none => decidable_of_iff (load.pending = 0) (by simp [Flushes])
  | some accepted =>
      decidable_of_iff (load.pending = 0 ∨ load.pending ≤ accepted) (by simp [Flushes])

/-- The load after a call, if the process goes on. -/
def step (load : Load) : Op → Option Load
  | .send data => some (load.send data)
  | .sendAndRecv arrived callback room =>
      if (load.beforeFlush arrived callback).Flushes room then
        some { load.beforeFlush arrived callback with pending := 0 }
      else none

/-- The load after the calls, if the process goes on. -/
def steps : Load → List Op → Option Load
  | load, [] => some load
  | load, op :: ops => (load.step op).bind fun next => next.steps ops

/-- Every `send` finds room, from the given load on and for as long as the process goes on. -/
def AllFit : Load → List Op → Prop
  | _, [] => True
  | load, op :: ops => load.Fits op ∧ ∀ next ∈ load.step op, next.AllFit ops

instance decidableAllFit : (load : Load) → (ops : List Op) → Decidable (load.AllFit ops)
  | _, [] => inferInstanceAs (Decidable True)
  | load, op :: ops =>
      haveI := fun next => decidableAllFit next ops
      inferInstanceAs (Decidable (_ ∧ ∀ next ∈ load.step op, next.AllFit ops))

end Load

/-- The indices do not exceed the buffers' size, so the length offered to `recvmsg` does not
underflow. -/
def InBuffers (socket : TCPSocket) : Prop :=
  socket.nextSendValidIndex.toNat ≤ tcpBufferSize ∧ socket.nextRecvValidIndex.toNat ≤ tcpBufferSize

/-- The bytes the kernel accepted and those in the send buffer are the bytes passed to `send`,
and the receive buffer holds the bytes received since the last reset. -/
structure Streams (traffic : Traffic) : Prop where
  sent : traffic.accepted ++ traffic.socket.getSendData = traffic.passed
  received : traffic.socket.getRecvData = traffic.received

/-- The socket's buffers have the load, and hold what the record says. -/
structure Carries (load : Load) (traffic : Traffic) : Prop where
  pending : traffic.socket.nextSendValidIndex.toNat = load.pending
  unread : traffic.socket.nextRecvValidIndex.toNat = load.unread
  inBuffers : InBuffers traffic.socket
  streams : Streams traffic

theorem new_carries (sendBuffer recvBuffer : ℕ → UInt8) :
    Carries ⟨0, 0⟩ (new sendBuffer recvBuffer) where
  pending := rfl
  unread := rfl
  inBuffers := ⟨Nat.zero_le _, Nat.zero_le _⟩
  streams := ⟨rfl, rfl⟩

variable {load : Load} {traffic : Traffic}

theorem run_copyInto {buffer : ℕ → UInt8} {index : UInt64} {data : List UInt8}
    (fits : index.toNat + data.length ≤ tcpBufferSize) :
    copyInto buffer index data traffic = .ok (Buffer.write buffer index.toNat data) traffic := by
  rw [copyInto, if_pos fits]
  rfl

theorem run_copyInto_beyond {buffer : ℕ → UInt8} {index : UInt64} {data : List UInt8}
    (beyond : ¬index.toNat + data.length ≤ tcpBufferSize) :
    copyInto buffer index data traffic = .error .outOfRange traffic := by
  rw [copyInto, if_neg beyond]
  rfl

/-- An index that moves on inside its buffer does not wrap. -/
theorem toNat_advance {index : UInt64} {count : ℕ}
    (fits : index.toNat + count ≤ tcpBufferSize) :
    (index + UInt64.ofNat count).toNat = index.toNat + count := by
  simp only [tcpBufferSize] at fits
  rw [UInt64.toNat_add, UInt64.toNat_ofNat']
  omega

/-- The socket when the data has been appended to its send buffer. -/
def pushed (traffic : Traffic) (data : List UInt8) : Traffic where
  socket := { traffic.socket with
    sendBuffer := Buffer.write traffic.socket.sendBuffer
      traffic.socket.nextSendValidIndex.toNat data
    nextSendValidIndex := traffic.socket.nextSendValidIndex + UInt64.ofNat data.length }
  passed := traffic.passed ++ data
  accepted := traffic.accepted
  received := traffic.received

theorem socket_passing {data : List UInt8} :
    (traffic.passing data).socket = traffic.socket := rfl

/-- Appending nothing leaves the socket as it was. -/
theorem pushed_nil : pushed traffic [] = traffic.passing [] := by
  simp [pushed, Traffic.passing]

theorem Carries.pushed {data : List UInt8} (carries : Carries load traffic)
    (takes : load.Takes data) : Carries (load.send data) (pushed traffic data) := by
  have fits : traffic.socket.nextSendValidIndex.toNat + data.length ≤ tcpBufferSize := by
    rw [carries.pending]
    exact takes
  have advanced := toNat_advance fits
  constructor
  case pending =>
    apply advanced.trans
    rw [carries.pending]
    rfl
  case unread => exact carries.unread
  case inBuffers => exact ⟨Nat.le_trans (Nat.le_of_eq advanced) fits, carries.inBuffers.2⟩
  case streams =>
    constructor
    · have appended : (TCPSocket.pushed traffic data).socket.getSendData =
          traffic.socket.getSendData ++ data := by
        rw [getSendData, getSendData]
        apply Eq.trans _ (Buffer.contents_write _ _ data)
        exact congrArg _ advanced
      rw [appended, ← List.append_assoc]
      exact congrArg (· ++ data) carries.streams.sent
    · exact carries.streams.received

theorem Carries.send {data : List UInt8} (carries : Carries load traffic)
    (takes : load.Takes data) :
    ∃ next, callSend data traffic = .ok ⟨⟩ next ∧ Carries (load.send data) next := by
  refine ⟨TCPSocket.pushed traffic data, ?_, carries.pushed takes⟩
  rw [callSend, Exec.run_modify_bind, TCPSocket.send, Exec.run_get_bind, Exec.run_ite]
  by_cases nonempty : 0 < data.length
  · rw [if_pos nonempty]
    apply Exec.run_bind_of_ok
    apply run_copyInto
    rw [socket_passing, carries.pending]
    exact takes
  · have empty : data = [] := by simpa using nonempty
    subst empty
    rw [if_neg nonempty, pushed_nil]
    rfl

theorem Carries.send_beyond {data : List UInt8} (carries : Carries load traffic)
    (beyond : ¬load.Takes data) :
    callSend data traffic = .error .outOfRange (traffic.passing data) := by
  have nonempty : 0 < data.length := by
    have bound := carries.inBuffers.1
    rw [carries.pending] at bound
    rw [Load.Takes] at beyond
    omega
  rw [callSend, Exec.run_modify_bind, TCPSocket.send, Exec.run_get_bind, Exec.run_ite,
    if_pos nonempty]
  apply Exec.run_bind_of_error
  apply run_copyInto_beyond
  rw [socket_passing, carries.pending]
  exact beyond

theorem Carries.reset (carries : Carries load traffic) :
    ∃ next, CallbackCall.reset.run traffic = .ok ⟨⟩ next ∧ Carries (load.call .reset) next :=
  ⟨_, rfl, carries.pending, rfl, ⟨carries.inBuffers.1, Nat.zero_le _⟩, carries.streams.sent, rfl⟩

theorem Carries.call {call : CallbackCall} (carries : Carries load traffic)
    (fits : load.CallFits call) :
    ∃ next, call.run traffic = .ok ⟨⟩ next ∧ Carries (load.call call) next := by
  cases call with
  | send data => exact carries.send fits
  | reset => exact carries.reset

theorem Carries.recvCallback {calls : List CallbackCall} (carries : Carries load traffic)
    (fits : load.CallbackFits calls) :
    ∃ next, TCPSocket.recvCallback calls traffic = .ok ⟨⟩ next ∧
      Carries (load.callback calls) next := by
  induction calls generalizing load traffic with
  | nil => exact ⟨traffic, rfl, carries⟩
  | cons call calls ih =>
      obtain ⟨middle, ran, carriesMiddle⟩ := carries.call fits.1
      obtain ⟨next, rest, carriesNext⟩ := ih carriesMiddle fits.2
      exact ⟨next, (Exec.run_bind_of_ok ran).trans rest, carriesNext⟩

/-- The first call that finds no room ends the callback. -/
theorem Carries.recvCallback_beyond {calls : List CallbackCall} (carries : Carries load traffic)
    (beyond : ¬load.CallbackFits calls) :
    ∃ last, TCPSocket.recvCallback calls traffic = .error .outOfRange last := by
  induction calls generalizing load traffic with
  | nil => exact absurd trivial beyond
  | cons call calls ih =>
      by_cases fits : load.CallFits call
      · obtain ⟨middle, ran, carriesMiddle⟩ := carries.call fits
        obtain ⟨last, stopped⟩ := ih carriesMiddle fun rest => beyond ⟨fits, rest⟩
        exact ⟨last, (Exec.run_bind_of_ok ran).trans stopped⟩
      · cases call with
        | send data => exact ⟨_, Exec.run_bind_of_error (carries.send_beyond fits)⟩
        | reset => exact absurd trivial fits

theorem Carries.toNat_offered (carries : Carries load traffic) :
    traffic.socket.offered.toNat = tcpBufferSize - load.unread := by
  have bound := carries.inBuffers.2
  have size : (UInt64.ofNat tcpBufferSize).toNat = tcpBufferSize := by decide
  rw [offered, UInt64.toNat_sub_of_le, size, carries.unread]
  rw [UInt64.le_iff_toNat_le, size]
  exact bound

theorem Carries.arrival_fits (carries : Carries load traffic) (arrived : Option (List UInt8)) :
    load.unread + (load.arrival arrived).length ≤ tcpBufferSize := by
  have bound := carries.inBuffers.2
  rw [carries.unread] at bound
  cases arrived with
  | none => exact bound
  | some waiting =>
      simp only [Load.arrival, List.length_take]
      omega

/-- The socket when the data is behind the unread bytes, with the index not yet advanced. -/
def deposited (traffic : Traffic) (data : List UInt8) : Traffic :=
  { traffic with
    socket := { traffic.socket with
      recvBuffer := Buffer.write traffic.socket.recvBuffer
        traffic.socket.nextRecvValidIndex.toNat data }
    received := traffic.received ++ data }

@[simp]
theorem deposited_nil : deposited traffic [] = traffic := by
  simp [deposited]

/-- The result of `recvmsg`. -/
def recvResult (arrived : Option (List UInt8)) (data : List UInt8) : Int64 :=
  if arrived = none then -1 else Int64.ofNat data.length

theorem Carries.recvmsg (carries : Carries load traffic) (arrived : Option (List UInt8)) :
    TCPSocket.recvmsg arrived traffic =
      .ok (recvResult arrived (load.arrival arrived))
        (deposited traffic (load.arrival arrived)) := by
  have fits := carries.arrival_fits arrived
  cases arrived with
  | none =>
      rw [Load.arrival, deposited_nil]
      rfl
  | some waiting =>
      rw [TCPSocket.recvmsg, Exec.run_get_bind]
      have taken : waiting.take traffic.socket.offered.toNat = load.arrival (some waiting) := by
        rw [carries.toNat_offered, Load.arrival]
      simp only [taken]
      rw [← carries.unread] at fits
      exact Exec.run_bind_of_ok (run_copyInto fits)

/-- The process sees that bytes have arrived exactly when there are some. -/
theorem recvResult_pos {arrived : Option (List UInt8)} {data : List UInt8}
    (nothing : arrived = none → data = []) (bound : data.length ≤ tcpBufferSize) :
    0 < recvResult arrived data ↔ data ≠ [] := by
  rw [recvResult]
  split
  · rename_i failed
    rw [nothing failed]
    decide
  · simp only [tcpBufferSize] at bound
    rw [Int64.lt_iff_toInt_lt, Int64.toInt_ofNat_of_lt (by omega), ← List.length_pos_iff]
    exact Int.ofNat_lt

/-- The socket when the received bytes have been counted, before the callback. -/
def received (traffic : Traffic) (data : List UInt8) : Traffic :=
  { deposited traffic data with
    socket := { (deposited traffic data).socket with
      nextRecvValidIndex := traffic.socket.nextRecvValidIndex + UInt64.ofNat data.length } }

theorem Carries.received {data : List UInt8} (carries : Carries load traffic)
    (fits : load.unread + data.length ≤ tcpBufferSize) :
    Carries (load.receive data) (received traffic data) := by
  rw [← carries.unread] at fits
  have advanced := toNat_advance fits
  constructor
  case pending => exact carries.pending
  case unread =>
    apply advanced.trans
    rw [carries.unread]
    rfl
  case inBuffers => exact ⟨carries.inBuffers.1, Nat.le_trans (Nat.le_of_eq advanced) fits⟩
  case streams =>
    constructor
    · exact carries.streams.sent
    · have appended : (TCPSocket.received traffic data).socket.getRecvData =
          traffic.socket.getRecvData ++ data := by
        rw [getRecvData, getRecvData]
        apply Eq.trans _ (Buffer.contents_write _ _ data)
        exact congrArg _ advanced
      rw [appended]
      exact congrArg (· ++ data) carries.streams.received

section Receive

variable {arrived : Option (List UInt8)} {callback : List CallbackCall}

/-- Nothing arrived: the callback is not run. -/
theorem Carries.receive_nothing (carries : Carries load traffic)
    (nothing : load.arrival arrived = []) :
    ∃ nRecv, ¬0 < nRecv ∧ TCPSocket.receive arrived callback traffic = .ok nRecv traffic := by
  have idle : ¬0 < recvResult arrived [] := by
    rw [recvResult_pos (fun _ => rfl) (Nat.zero_le _)]
    exact fun some => some rfl
  have ran := carries.recvmsg arrived
  rw [nothing, deposited_nil] at ran
  refine ⟨_, idle, ?_⟩
  rw [TCPSocket.receive, Exec.run_bind_of_ok ran, Exec.run_ite, if_neg idle]
  rfl

/-- Bytes arrived: they are counted and the callback is run. -/
theorem Carries.receive_some (carries : Carries load traffic)
    (some : load.arrival arrived ≠ []) :
    ∃ nRecv, 0 < nRecv ∧ TCPSocket.receive arrived callback traffic =
      (TCPSocket.recvCallback callback >>= fun _ => pure nRecv)
        (TCPSocket.received traffic (load.arrival arrived)) := by
  have bound := carries.arrival_fits arrived
  have nothing : arrived = none → load.arrival arrived = [] := by
    intro failed
    rw [failed, Load.arrival]
  have counts : 0 < recvResult arrived (load.arrival arrived) :=
    (recvResult_pos nothing (by omega)).mpr some
  have ofNat : recvResult arrived (load.arrival arrived) =
      Int64.ofNat (load.arrival arrived).length := if_neg fun failed => some (nothing failed)
  refine ⟨_, counts, ?_⟩
  rw [TCPSocket.receive, Exec.run_bind_of_ok (carries.recvmsg arrived), Exec.run_ite,
    if_pos counts, Exec.run_modify_bind, ofNat]
  rfl

/-- The first half of `sendAndRecv`, when the callback finds room. -/
theorem Carries.receive (carries : Carries load traffic)
    (fits : load.arrival arrived ≠ [] →
      (load.receive (load.arrival arrived)).CallbackFits callback) :
    ∃ nRecv next, TCPSocket.receive arrived callback traffic = .ok nRecv next ∧
      Carries (load.beforeFlush arrived callback) next := by
  by_cases nothing : load.arrival arrived = []
  · obtain ⟨nRecv, _, ran⟩ := carries.receive_nothing nothing
    refine ⟨nRecv, traffic, ran, ?_⟩
    rw [Load.beforeFlush, if_pos nothing]
    exact carries
  · obtain ⟨nRecv, _, ran⟩ := carries.receive_some nothing
    obtain ⟨next, called, carriesNext⟩ :=
      (carries.received (carries.arrival_fits arrived)).recvCallback (fits nothing)
    refine ⟨nRecv, next, ran.trans (Exec.run_bind_of_ok called), ?_⟩
    rw [Load.beforeFlush, if_neg nothing]
    exact carriesNext

theorem Carries.receive_beyond (carries : Carries load traffic)
    (some : load.arrival arrived ≠ [])
    (beyond : ¬(load.receive (load.arrival arrived)).CallbackFits callback) :
    ∃ last, TCPSocket.receive arrived callback traffic = .error .outOfRange last := by
  obtain ⟨nRecv, _, ran⟩ := carries.receive_some some
  obtain ⟨last, stopped⟩ :=
    (carries.received (carries.arrival_fits arrived)).recvCallback_beyond beyond
  exact ⟨last, ran.trans (Exec.run_bind_of_error stopped)⟩

end Receive

/-- The socket after the kernel has accepted the data. -/
def handedOver (traffic : Traffic) (data : List UInt8) : Traffic :=
  { traffic with accepted := traffic.accepted ++ data }

/-- The socket with an empty send buffer. -/
def emptied (traffic : Traffic) : Traffic :=
  { traffic with socket := { traffic.socket with nextSendValidIndex := 0 } }

theorem run_kernelSend (room : ℕ) :
    kernelSend (some room) traffic =
      .ok (Int64.ofNat (traffic.socket.getSendData.take room).length)
        (handedOver traffic (traffic.socket.getSendData.take room)) := rfl

theorem Carries.length_getSendData (carries : Carries load traffic) :
    traffic.socket.getSendData.length = load.pending :=
  (Buffer.length_contents _ _).trans carries.pending

/-- The process takes the flush for complete exactly when the kernel accepted all pending bytes. -/
theorem Carries.complete_iff (carries : Carries load traffic) (room : ℕ) :
    (Int64.ofNat (traffic.socket.getSendData.take room).length).toUInt64 =
      traffic.socket.nextSendValidIndex ↔ load.pending ≤ room := by
  have bound := carries.inBuffers.1
  simp only [tcpBufferSize] at bound
  rw [Int64.toUInt64_ofNat', List.length_take, carries.length_getSendData,
    ← UInt64.toNat_inj, UInt64.toNat_ofNat', carries.pending]
  rw [carries.pending] at bound
  omega

theorem Carries.emptied_handedOver (carries : Carries load traffic) :
    Carries { load with pending := 0 }
      (emptied (handedOver traffic traffic.socket.getSendData)) where
  pending := rfl
  unread := carries.unread
  inBuffers := ⟨Nat.zero_le _, carries.inBuffers.2⟩
  streams := ⟨(List.append_nil _).trans carries.streams.sent, carries.streams.received⟩

theorem Carries.pos_iff (carries : Carries load traffic) :
    0 < traffic.socket.nextSendValidIndex ↔ load.pending ≠ 0 := by
  rw [UInt64.lt_iff_toNat_lt, carries.pending]
  exact Nat.pos_iff_ne_zero

theorem Carries.flush {room : Option ℕ} (carries : Carries load traffic)
    (flushes : load.Flushes room) :
    ∃ next, TCPSocket.flush room traffic = .ok ⟨⟩ next ∧
      Carries { load with pending := 0 } next := by
  refine ⟨_, ?_, carries.emptied_handedOver⟩
  rw [TCPSocket.flush, Exec.run_get_bind, Exec.run_ite]
  by_cases nothing : load.pending = 0
  · have empty : traffic.socket.getSendData = [] := by
      rw [← List.length_eq_zero_iff, carries.length_getSendData]
      exact nothing
    rw [if_neg (mt carries.pos_iff.mp (not_not_intro nothing)), empty, handedOver,
      List.append_nil]
    rfl
  · obtain ⟨accepted, member, enough⟩ := flushes.resolve_left nothing
    cases member
    have whole : traffic.socket.getSendData.take accepted = traffic.socket.getSendData := by
      apply List.take_of_length_le
      rw [carries.length_getSendData]
      exact enough
    rw [if_pos (carries.pos_iff.mpr nothing), Exec.run_bind_of_ok (run_kernelSend accepted),
      Exec.run_ite, if_pos ((carries.complete_iff accepted).mpr enough), whole]
    rfl

/-- A flush that the kernel does not take as a whole does not go unnoticed. -/
theorem Carries.flush_short {room : Option ℕ} (carries : Carries load traffic)
    (short : ¬load.Flushes room) :
    ∃ last, TCPSocket.flush room traffic =
        .error (.assertFailed "Could not send all the send buffer") last ∧
      InBuffers last.socket := by
  have pending : load.pending ≠ 0 := fun nothing => short (.inl nothing)
  rw [TCPSocket.flush, Exec.run_get_bind, Exec.run_ite, if_pos (carries.pos_iff.mpr pending)]
  cases room with
  | none =>
      refine ⟨traffic, ?_, carries.inBuffers⟩
      have bound := carries.inBuffers.1
      simp only [tcpBufferSize] at bound
      have differ : ¬(-1 : Int64).toUInt64 = traffic.socket.nextSendValidIndex := by
        intro same
        rw [← same] at bound
        exact absurd bound (by decide)
      have failed : kernelSend none traffic = .ok (-1) traffic := rfl
      rw [Exec.run_bind_of_ok failed, Exec.run_ite, if_neg differ]
      rfl
  | some accepted =>
      have short : ¬load.pending ≤ accepted := fun enough => short (.inr ⟨_, rfl, enough⟩)
      refine ⟨handedOver traffic (traffic.socket.getSendData.take accepted), ?_,
        carries.inBuffers⟩
      rw [Exec.run_bind_of_ok (run_kernelSend accepted), Exec.run_ite,
        if_neg (mt (carries.complete_iff accepted).mp short)]
      rfl

end QuantEngine.TCPSocket
