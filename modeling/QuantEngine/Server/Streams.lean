import QuantEngine.Server.Lists
import QuantEngine.Socket.Stream

/-!
# The byte streams of the server

A connection has buffers of its own, and the server changes them only by the one
`sendAndRecv` it makes on the connection in each `sendAndRecv` of its own. What
holds of one socket therefore holds of every connection at once, whatever
connections come and go: no byte is lost, repeated, reordered, or sent to
another connection.

An application may also call `send` on a connection between the server's calls.
-/

namespace QuantEngine.TCPSocket

open Exec

variable {load : Load} {traffic next : Traffic} {arrived : Option (List UInt8)}
  {callback : List CallbackCall} {room : Option ℕ} {received : Bool}

/-- Bytes have arrived, and there is room for them. -/
def Delivers (arrived : Option (List UInt8)) (traffic : Traffic) : Prop :=
  ∃ waiting, arrived = some waiting ∧ waiting ≠ [] ∧
    traffic.socket.nextRecvValidIndex.toNat < tcpBufferSize

theorem Carries.delivers_iff (carries : Carries load traffic) :
    Delivers arrived traffic ↔ load.arrival arrived ≠ [] := by
  rw [Delivers, carries.unread]
  cases arrived with
  | none => simp [Load.arrival]
  | some waiting =>
      have room : tcpBufferSize - load.unread ≠ 0 ↔ load.unread < tcpBufferSize := by omega
      simp only [Load.arrival, ne_eq, List.take_eq_nil_iff, Option.some.injEq, exists_eq_left',
        ← room]
      tauto

/-- A `send` that returns has found room. -/
theorem Carries.send_returns {data : List UInt8} {done : PUnit} (carries : Carries load traffic)
    (ran : callSend data traffic = .ok done next) : ∃ after, Carries after next := by
  by_cases takes : load.Takes data
  · rcases carries.send takes with ⟨last, sent, carriesLast⟩
    rw [sent] at ran
    cases ran
    exact ⟨_, carriesLast⟩
  · rw [carries.send_beyond takes] at ran
    cases ran

theorem Carries.receive_returns {nRecv : Int64} (carries : Carries load traffic)
    (ran : TCPSocket.receive arrived callback traffic = .ok nRecv next) :
    (∃ after, Carries after next) ∧ (0 < nRecv ↔ load.arrival arrived ≠ []) := by
  by_cases nothing : load.arrival arrived = []
  · rcases carries.receive_nothing nothing with ⟨result, idle, returned⟩
    rw [returned] at ran
    cases ran
    exact ⟨⟨load, carries⟩, iff_of_false idle (not_not_intro nothing)⟩
  · rcases carries.receive_some nothing with ⟨result, counts, returned⟩
    have carriesReceived := carries.received (carries.arrival_fits arrived)
    by_cases fits : (load.receive (load.arrival arrived)).CallbackFits callback
    · rcases carriesReceived.recvCallback fits with ⟨last, called, carriesLast⟩
      rw [returned, run_bind_of_ok called] at ran
      cases ran
      exact ⟨⟨_, carriesLast⟩, iff_of_true counts nothing⟩
    · rcases carriesReceived.recvCallback_beyond fits with ⟨last, beyond⟩
      rw [returned, run_bind_of_error beyond] at ran
      cases ran

theorem Carries.flush_returns {done : PUnit} (carries : Carries load traffic)
    (ran : TCPSocket.flush room traffic = .ok done next) :
    ∃ after, Carries after next ∧ after.pending = 0 := by
  by_cases flushes : load.Flushes room
  · rcases carries.flush flushes with ⟨last, flushed, carriesLast⟩
    rw [flushed] at ran
    cases ran
    exact ⟨_, carriesLast, rfl⟩
  · rcases carries.flush_short flushes with ⟨last, stopped, -⟩
    rw [stopped] at ran
    cases ran

/-- A `sendAndRecv` that returns has handed over everything, and says whether bytes arrived. -/
theorem Carries.sendAndRecv_returns (carries : Carries load traffic)
    (ran : TCPSocket.sendAndRecv arrived callback room traffic = .ok received next) :
    (∃ after, Carries after next ∧ after.pending = 0) ∧
      (received = true ↔ Delivers arrived traffic) := by
  rw [TCPSocket.sendAndRecv] at ran
  rcases run_bind_eq_ok_iff.mp ran with ⟨nRecv, middle, receives, rest⟩
  rcases run_bind_eq_ok_iff.mp rest with ⟨done, last, flushes, returns⟩
  cases returns
  rcases carries.receive_returns receives with ⟨⟨after, carriesMiddle⟩, some⟩
  exact ⟨carriesMiddle.flush_returns flushes, by
    rw [decide_eq_true_iff, some, carries.delivers_iff]⟩

/-- With an empty send buffer the kernel has accepted everything. -/
theorem Carries.accepted_eq (carries : Carries load traffic) (nothing : load.pending = 0) :
    traffic.accepted = traffic.passed := by
  have sent := carries.streams.sent
  have empty : traffic.socket.getSendData = [] := by
    rw [← List.length_eq_zero_iff, carries.length_getSendData]
    exact nothing
  rwa [empty, List.append_nil] at sent

end QuantEngine.TCPSocket

namespace QuantEngine.TCPServer

open Exec Distinct Runs TCPSocket

/-- `sendAndRecv` on a socket, with what its system calls find. -/
def Transfer.run (transfer : Transfer) : SocketM Bool :=
  TCPSocket.sendAndRecv transfer.arrived transfer.callback transfer.room

variable {start server next last : TCPServer} {socket : ℕ} {sockets : List ℕ}
  {transfer : Transfer} {transfers incoming outgoing : ℕ → Transfer} {received : Bool}
  {accepted : Accepted} {rest : List Accepted} {event : EpollEvent} {events : List EpollEvent}
  {deleted : ℕ → Int32} {dead : List ℕ} {op : Op}

theorem transferOn_eq_ok_iff :
    transferOn transfer socket server = .ok received next ↔
      ∃ traffic, transfer.run (server.traffic socket) = .ok received traffic ∧
        next = { server with traffic := Function.update server.traffic socket traffic } := by
  unfold transferOn Transfer.run
  dsimp only
  split
  case h_1 result traffic ran =>
      constructor
      · rintro ⟨⟩
        exact ⟨traffic, ran, rfl⟩
      · rintro ⟨traffic', same, rfl⟩
        rw [ran] at same
        cases same
        rfl
  case h_2 fault traffic stopped =>
      constructor
      · rintro ⟨⟩
      · rintro ⟨traffic', same, rfl⟩
        rw [stopped] at same
        cases same

/-- Each socket of the loop is served once, with the buffers it had before the loop. -/
structure Served (transfers : ℕ → Transfer) (sockets : List ℕ) (server : TCPServer)
    (received : Bool) (next : TCPServer) : Prop where
  served : ∀ socket ∈ sockets, ∃ result,
    (transfers socket).run (server.traffic socket) = .ok result (next.traffic socket)
  others : ∀ socket, socket ∉ sockets → next.traffic socket = server.traffic socket
  received : received = true ↔ ∃ socket ∈ sockets,
    (transfers socket).run (server.traffic socket) = .ok true (next.traffic socket)

theorem served_of_transferAll (nodup : sockets.Nodup)
    (ran : transferAll transfers sockets server = .ok received next) :
    Served transfers sockets server received next := by
  induction sockets generalizing server received with
  | nil =>
      cases ran
      exact ⟨by simp, fun _ _ => rfl, by simp⟩
  | cons first rest ih =>
      rcases List.nodup_cons.mp nodup with ⟨absent, nodupRest⟩
      rw [transferAll] at ran
      rcases run_bind_eq_ok_iff.mp ran with ⟨result, middle, one, ran⟩
      rcases run_bind_eq_ok_iff.mp ran with ⟨others, last, more, returns⟩
      cases returns
      rcases transferOn_eq_ok_iff.mp one with ⟨traffic, runs, rfl⟩
      have servedRest := ih nodupRest more
      have firstKept : next.traffic first = traffic :=
        (servedRest.others first absent).trans (Function.update_self ..)
      have before : ∀ socket ∈ rest,
          Function.update server.traffic first traffic socket = server.traffic socket := by
        intro socket member
        apply Function.update_of_ne
        rintro rfl
        exact absent member
      have servedFirst : (transfers first).run (server.traffic first) =
          .ok result (next.traffic first) := by
        rw [firstKept, runs]
      refine ⟨?_, ?_, ?_⟩
      · intro socket member
        rcases List.mem_cons.mp member with rfl | member
        · exact ⟨result, servedFirst⟩
        · rw [← before socket member]
          exact servedRest.served socket member
      · intro socket unvisited
        rw [servedRest.others socket fun member => unvisited (List.mem_cons_of_mem _ member)]
        apply Function.update_of_ne
        rintro rfl
        exact unvisited List.mem_cons_self
      · rw [Bool.or_eq_true, servedRest.received]
        constructor
        · rintro (rfl | ⟨socket, member, receives⟩)
          · exact ⟨first, List.mem_cons_self, servedFirst⟩
          · refine ⟨socket, List.mem_cons_of_mem _ member, ?_⟩
            rwa [← before socket member]
        · rintro ⟨socket, member, receives⟩
          rcases List.mem_cons.mp member with rfl | member
          · rw [servedFirst] at receives
            cases receives
            exact Or.inl rfl
          · rw [← before socket member] at receives
            exact Or.inr ⟨socket, member, receives⟩

theorem served_of_sendAndRecv (nodup : server.receiveSockets.Nodup)
    (sendsNothing : server.sendSockets = [])
    (ran : sendAndRecv incoming outgoing server = .ok received next) :
    Served incoming server.receiveSockets server received next := by
  rw [sendAndRecv, run_get_bind] at ran
  rcases run_bind_eq_ok_iff.mp ran with ⟨result, middle, transferred, ran⟩
  have kept : Transfers server.receiveSockets server middle :=
    (keeps_transferAll fun _ member => member).of_ok transferred
  rcases kept with ⟨traffic, rfl, -⟩
  have nothing : transferAll outgoing server.sendSockets = pure false := by
    rw [sendsNothing]
    rfl
  rw [run_get_bind, nothing] at ran
  cases ran
  exact served_of_transferAll nodup transferred

/-- Every connection has what its record says in its buffers, and is received from while it is
listed. -/
structure Flows (server : TCPServer) : Prop where
  receives : ∀ socket ∈ server.sockets, socket ∈ server.receiveSockets
  carries : ∀ socket ∈ server.heap, ∃ load, Carries load (server.traffic socket)

/-- What a `sendAndRecv` that returns leaves. Every listed connection is served exactly once, and
the kernel has accepted all that was passed to its `send`; no other buffers change; and the finish
callback is called exactly if bytes arrived on a listed connection with room for them. -/
structure Serves (incoming : ℕ → Transfer) (server : TCPServer) (received : Bool)
    (next : TCPServer) : Prop where
  served : ∀ socket ∈ server.sockets, ∃ result,
    (incoming socket).run (server.traffic socket) = .ok result (next.traffic socket)
  flushed : ∀ socket ∈ server.sockets,
    (next.traffic socket).accepted = (next.traffic socket).passed
  others : ∀ socket, socket ∉ server.sockets → next.traffic socket = server.traffic socket
  finished : received = true ↔ ∃ socket ∈ server.sockets,
    Delivers (incoming socket).arrived (server.traffic socket)

namespace Flows

theorem of_listening (listening : Listening server) : Flows server where
  receives := by simp [listening.sockets]
  carries := by simp [listening.heap]

theorem without (flows : Flows server) : Flows (server.without deleted dead) where
  receives socket member := by
    rcases List.mem_filter.mp member with ⟨member, kept⟩
    exact List.mem_filter.mpr ⟨flows.receives socket member, kept⟩
  carries := flows.carries

/-- Events take nothing out of `receive_sockets_`. -/
theorem handleEvent (flows : Flows server) : Flows (server.handleEvent event) := by
  have same := sameConnections_handleEvent server event
  constructor
  · intro socket member
    rw [same.sockets] at member
    have before := flows.receives socket member
    unfold TCPServer.handleEvent
    split
    · exact before
    · dsimp only
      split
      · exact mem_pushNew.mpr (Or.inl before)
      · exact before
  · rw [same.heap, same.traffic]
    exact flows.carries

/-- A new connection has buffers of its own. -/
theorem enlist (flows : Flows server) : Flows (server.enlist accepted) where
  receives socket member :=
    mem_pushNew.mpr ((mem_pushNew.mp member).imp_left (flows.receives socket))
  carries socket member := by
    change ∃ load, Carries load (Function.update server.traffic accepted.socket _ socket)
    by_cases isNew : socket = accepted.socket
    · rw [isNew, Function.update_self]
      exact ⟨_, new_carries _ _⟩
    · rw [Function.update_of_ne isNew]
      exact flows.carries socket ((List.mem_cons.mp member).resolve_left isNew)

theorem serves (flows : Flows server) (tidy : Tidy server)
    (ran : sendAndRecv incoming outgoing server = .ok received next) :
    Serves incoming server received next := by
  have served := served_of_sendAndRecv tidy.receiveSockets tidy.sendsNothing ran
  have returns : ∀ socket ∈ server.sockets, ∃ result,
      (incoming socket).run (server.traffic socket) = .ok result (next.traffic socket) :=
    fun socket listed => served.served socket (flows.receives socket listed)
  refine ⟨returns, ?_, ?_, ?_⟩
  · intro socket listed
    rcases returns socket listed with ⟨result, ran⟩
    rcases flows.carries socket (tidy.created socket listed) with ⟨load, carries⟩
    rcases (carries.sendAndRecv_returns ran).1 with ⟨after, carriesNext, nothing⟩
    exact carriesNext.accepted_eq nothing
  · intro socket unlisted
    exact served.others socket fun member => unlisted (tidy.received socket member)
  · rw [served.received]
    constructor
    · rintro ⟨socket, member, receives⟩
      have listed := tidy.received socket member
      rcases flows.carries socket (tidy.created socket listed) with ⟨load, carries⟩
      exact ⟨socket, listed, (carries.sendAndRecv_returns receives).2.mp rfl⟩
    · rintro ⟨socket, listed, delivers⟩
      rcases flows.carries socket (tidy.created socket listed) with ⟨load, carries⟩
      rcases returns socket listed with ⟨result, ran⟩
      refine ⟨socket, flows.receives socket listed, ?_⟩
      rwa [← (carries.sendAndRecv_returns ran).2.mpr delivers]

theorem sendAndRecv (flows : Flows server) (tidy : Tidy server)
    (ran : TCPServer.sendAndRecv incoming outgoing server = .ok received next) : Flows next := by
  have serves := flows.serves tidy ran
  have transfers := transfers_sendAndRecv incoming outgoing server
  rw [ran, finalState_ok] at transfers
  rcases transfers with ⟨traffic, rfl, -⟩
  refine ⟨flows.receives, ?_⟩
  intro socket created
  rcases flows.carries socket created with ⟨load, carries⟩
  by_cases listed : socket ∈ server.sockets
  · rcases serves.served socket listed with ⟨result, ran⟩
    rcases (carries.sendAndRecv_returns ran).1 with ⟨after, carriesNext, -⟩
    exact ⟨after, carriesNext⟩
  · rw [serves.others socket listed]
    exact ⟨load, carries⟩

theorem step (flows : Flows server) (tidy : Tidy server)
    (stepped : Op.AllowedStep server op next) : Flows next := by
  rcases stepped with ⟨-, ran⟩
  cases op with
  | poll kernel =>
      rcases poll_eq_ok_iff.mp ran with ⟨-, -, rfl⟩
      refine List.foldlRecOn (motive := Flows) _ _ ?_ fun _ kept _ _ => kept.enlist
      refine List.foldlRecOn (motive := Flows) _ _ ?_ fun _ kept _ _ => kept.handleEvent
      rw [cleanup_eq]
      exact flows.without
  | del result socket =>
      cases ran
      rw [del_eq]
      exact flows.without
  | sendAndRecv incoming outgoing =>
      rcases run_bind_eq_ok_iff.mp ran with ⟨received, middle, ran, returns⟩
      cases returns
      exact flows.sendAndRecv tidy ran

end Flows

/-- A call on the server, or a `send` on a connection from outside its callback. -/
inductive Call where
  | server (op : Op)
  | send (socket : ℕ) (data : List UInt8)

/-- The call returns. What is promised of the system calls holds, and `send` is called on a
connection that was accepted. -/
inductive Call.Step (server : TCPServer) : Call → TCPServer → Prop
  | server {op : Op} {next : TCPServer} (stepped : Op.AllowedStep server op next) :
      Step server (.server op) next
  | send {socket : ℕ} {data : List UInt8} {traffic : Traffic} (created : socket ∈ server.heap)
      (ran : callSend data (server.traffic socket) = .ok ⟨⟩ traffic) :
      Step server (.send socket data)
        { server with traffic := Function.update server.traffic socket traffic }

theorem Flows.send {data : List UInt8} {traffic : Traffic} (flows : Flows server)
    (created : socket ∈ server.heap)
    (ran : callSend data (server.traffic socket) = .ok ⟨⟩ traffic) :
    Flows { server with traffic := Function.update server.traffic socket traffic } where
  receives := flows.receives
  carries other member := by
    dsimp only
    by_cases same : other = socket
    · rcases flows.carries socket created with ⟨load, carries⟩
      rw [same, Function.update_self]
      exact carries.send_returns ran
    · rw [Function.update_of_ne same]
      exact flows.carries other member

/-- In every run of the server, for every connection that was ever accepted, what the kernel has
accepted and what is in the send buffer are the bytes passed to its `send`, and its receive buffer
holds the bytes received since the last reset. A `sendAndRecv` that then returns has served every
listed connection once and has left nothing of what was passed to their `send`. -/
theorem streams_of_run {calls : List Call} (listening : Listening start)
    (run : Run Call.Step start calls last) :
    (∀ socket ∈ last.heap, Streams (last.traffic socket)) ∧
      ∀ incoming outgoing received next,
        sendAndRecv incoming outgoing last = .ok received next →
          Serves incoming last received next := by
  have kept : Tidy last ∧ Flows last := by
    refine run.invariant (fun server => Tidy server ∧ Flows server)
      ⟨Tidy.of_listening listening, Flows.of_listening listening⟩ ?_
    rintro server call next ⟨tidy, flows⟩ stepped
    cases stepped with
    | server stepped => exact ⟨tidy.step stepped, flows.step tidy stepped⟩
    | send created ran => exact ⟨{ tidy with }, flows.send created ran⟩
  constructor
  · intro socket created
    rcases kept.2.carries socket created with ⟨load, carries⟩
    exact carries.streams
  · intro incoming outgoing received next ran
    exact kept.2.serves kept.1 ran

/-- The first connection answers the byte that arrives, and nothing happens on the second. -/
def sampleIncoming (socket : ℕ) : Transfer :=
  if socket = 1 then { arrived := some [7], callback := [.send [9], .reset], room := some 3 }
  else { arrived := none, callback := [], room := none }

/-- Two connections are accepted and the application sends two bytes on the first. -/
def sampleCalls : List Call :=
  [.server (samplePoll [{ events := epollin, socket := 0 }] [sampleAccepted 1, sampleAccepted 2]),
    .send 1 [1, 2]]

theorem streams_of_run_sample : ∃ last next,
    Run Call.Step sampleServer sampleCalls last ∧ (last.traffic 1).passed = [1, 2] ∧
      Serves sampleIncoming last true next := by
  have steps : ∃ middle traffic next,
      Op.AllowedStep sampleServer (samplePoll [{ events := epollin, socket := 0 }]
        [sampleAccepted 1, sampleAccepted 2]) middle ∧
      1 ∈ middle.heap ∧ callSend [1, 2] (middle.traffic 1) = .ok ⟨⟩ traffic ∧
      traffic.passed = [1, 2] ∧
      sendAndRecv sampleIncoming sampleIncoming
        { middle with traffic := Function.update middle.traffic 1 traffic } = .ok true next :=
    ⟨_, _, _, ⟨by decide, poll_eq_ok_iff.mpr ⟨by decide, by decide, rfl⟩⟩, by decide, rfl, rfl,
      rfl⟩
  rcases steps with ⟨middle, traffic, next, accepts, created, sent, passed, ran⟩
  have run : Run Call.Step sampleServer sampleCalls _ :=
    (Run.nil.snoc (.server accepts)).snoc (.send created sent)
  have sends : (Function.update middle.traffic 1 traffic 1).passed = [1, 2] := by
    rw [Function.update_self, passed]
  exact ⟨_, next, run, sends, (streams_of_run sampleServer_listening run).2 _ _ _ _ ran⟩

end QuantEngine.TCPServer
