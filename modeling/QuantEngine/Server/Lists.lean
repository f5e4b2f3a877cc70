import QuantEngine.Server.Calls

/-!
# The lists of the server

The four lists and the interest list are changed by different calls, one at a
time. They stay together as long as the kernel reports registered sockets only:
what is registered is the listener or is listed, what is received from is
listed, and what is listed was created. A connection that was reported as failed
stays in `disconnected_sockets_` for good, so every later `poll` deletes it
again, and nothing brings it back into the other lists.
-/

namespace QuantEngine.TCPServer

open Exec Distinct Runs

/-- The server waits for connections and has none. -/
structure Listening (server : TCPServer) : Prop where
  sockets : server.sockets = []
  receiveSockets : server.receiveSockets = []
  sendSockets : server.sendSockets = []
  disconnectedSockets : server.disconnectedSockets = []
  heap : server.heap = []
  registered : server.registered = [server.listenerSocket]

/-- What is promised of the system calls and of `new`: a registered socket can be deleted, only
registered sockets are reported and none as writable, and every new socket has an address of its
own. -/
def Op.Allowed (server : TCPServer) : Op → Prop
  | .poll kernel =>
      (∀ socket ∈ server.registered, kernel.deleted socket ≠ -1) ∧
        (∀ event ∈ server.batch kernel,
          event.socket ∈ (server.cleanup kernel.deleted).registered ∧
            event.events &&& epollout = 0) ∧
        ∀ accepted ∈ server.newcomers kernel,
          accepted.socket ∉ server.heap ∧ accepted.socket ≠ server.listenerSocket
  | .del result socket => socket ∈ server.registered → result ≠ -1
  | .sendAndRecv _ _ => True

/-- The call is allowed and returns. -/
def Op.AllowedStep (server : TCPServer) (op : Op) (next : TCPServer) : Prop :=
  op.Allowed server ∧ op.Step server next

/-- The call is a `poll`. -/
def Op.polls : Op → Bool
  | .poll _ => true
  | .del _ _ => false
  | .sendAndRecv _ _ => false

variable {start server next last : TCPServer} {socket : ℕ} {deleted : ℕ → Int32} {dead : List ℕ}
  {event : EpollEvent} {events : List EpollEvent} {accepted : Accepted} {rest : List Accepted}
  {kernel : PollResults} {result : Int32} {op : Op} {ops more : List Op}

/-- A `listen` that returns leaves a new server listening. -/
theorem listening_of_listen {network : Network} {iface error : String} {port efd added : Int32}
    {listenerSocket : ℕ} {traffic : ℕ → TCPSocket.Traffic} {resources : Resources} {done : PUnit}
    (ran : listen network iface port efd added error (new listenerSocket traffic resources) =
      .ok done last) : Listening last := by
  rw [listen, run_modify_bind, run_modify_bind, assert_bind_eq_ok_iff, run_modify_bind,
    run_get_bind, assert_bind_eq_ok_iff, run_bind_of_ok (run_epollAdd _ _ _),
    assert_eq_ok_iff] at ran
  rcases ran with ⟨-, -, adds, rfl⟩
  refine ⟨rfl, rfl, rfl, rfl, rfl, ?_⟩
  exact if_pos (of_decide_eq_true adds)

structure Tidy (server : TCPServer) : Prop where
  sockets : server.sockets.Nodup
  receiveSockets : server.receiveSockets.Nodup
  disconnectedSockets : server.disconnectedSockets.Nodup
  sendsNothing : server.sendSockets = []
  received : ∀ socket ∈ server.receiveSockets, socket ∈ server.sockets
  created : ∀ socket ∈ server.sockets, socket ∈ server.heap
  failed : ∀ socket ∈ server.disconnectedSockets,
    socket = server.listenerSocket ∨ socket ∈ server.heap
  registered : ∀ socket ∈ server.registered,
    socket = server.listenerSocket ∨ socket ∈ server.sockets
  listener : server.listenerSocket ∉ server.heap

namespace Tidy

theorem of_listening (listening : Listening server) : Tidy server where
  sockets := by simp [listening.sockets]
  receiveSockets := by simp [listening.receiveSockets]
  disconnectedSockets := by simp [listening.disconnectedSockets]
  sendsNothing := listening.sendSockets
  received := by simp [listening.receiveSockets]
  created := by simp [listening.sockets]
  failed := by simp [listening.disconnectedSockets]
  registered := by simp [listening.registered]
  listener := by simp [listening.heap]

section Kept

variable (tidy : Tidy server)

include tidy

theorem without (deletes : ∀ socket ∈ dead, socket ∈ server.registered → deleted socket ≠ -1) :
    Tidy (server.without deleted dead) where
  sockets := tidy.sockets.filter _
  receiveSockets := tidy.receiveSockets.filter _
  disconnectedSockets := tidy.disconnectedSockets
  sendsNothing := by
    change server.sendSockets.filter _ = []
    rw [tidy.sendsNothing, List.filter_nil]
  received socket member := by
    rcases List.mem_filter.mp member with ⟨member, kept⟩
    exact List.mem_filter.mpr ⟨tidy.received socket member, kept⟩
  created socket member := tidy.created socket (List.mem_filter.mp member).1
  failed := tidy.failed
  registered socket member := by
    rcases List.mem_filter.mp member with ⟨member, kept⟩
    refine (tidy.registered socket member).imp_right fun listed => List.mem_filter.mpr ⟨listed, ?_⟩
    have alive : ¬(socket ∈ dead ∧ deleted socket ≠ -1) := of_decide_eq_true kept
    exact decide_eq_true fun isDead => alive ⟨isDead, deletes socket isDead member⟩
  listener := tidy.listener

/-- A socket that is received from is registered and not the listener, so it is listed. -/
theorem handleEvent (reported : event.socket ∈ server.registered)
    (notWritable : event.events &&& epollout = 0) : Tidy (server.handleEvent event) := by
  have same := sameConnections_handleEvent server event
  have sending : server.sendSockets.Nodup := by simp [tidy.sendsNothing]
  have nodup : (server.handleEvent event).receiveSockets.Nodup ∧ _ ∧
      (server.handleEvent event).disconnectedSockets.Nodup :=
    nodup_handleEvent tidy.receiveSockets sending tidy.disconnectedSockets
  rcases nodup with ⟨receiving, -, disconnected⟩
  refine ⟨?_, receiving, disconnected, ?_, ?_, ?_, ?_, ?_, ?_⟩
  · rw [same.sockets]
    exact tidy.sockets
  · apply List.eq_nil_iff_forall_not_mem.mpr
    intro socket member
    rcases mem_sendSockets_handleEvent member with old | ⟨-, writable⟩
    · simp [tidy.sendsNothing] at old
    · exact writable notWritable
  · intro socket member
    rw [same.sockets]
    rcases mem_receiveSockets_handleEvent member with old | ⟨rfl, notListener⟩
    · exact tidy.received socket old
    · exact (tidy.registered _ reported).resolve_left notListener
  · rw [same.sockets, same.heap]
    exact tidy.created
  · intro socket member
    rw [same.listenerSocket, same.heap]
    rcases mem_disconnectedSockets_handleEvent member with old | rfl
    · exact tidy.failed socket old
    · exact (tidy.registered _ reported).imp_right (tidy.created _)
  · rw [same.registered, same.listenerSocket, same.sockets]
    exact tidy.registered
  · rw [same.listenerSocket, same.heap]
    exact tidy.listener

theorem handleEvents (reported : ∀ event ∈ events,
      event.socket ∈ server.registered ∧ event.events &&& epollout = 0) :
    Tidy (events.foldl TCPServer.handleEvent server) := by
  apply handleEvents_keep Tidy tidy
  intro state kept same event member
  rcases reported event member with ⟨registered, notWritable⟩
  exact kept.handleEvent (same ▸ registered) notWritable

theorem enlist (apart : accepted.socket ≠ server.listenerSocket) :
    Tidy (server.enlist accepted) where
  sockets := nodup_pushNew tidy.sockets
  receiveSockets := nodup_pushNew tidy.receiveSockets
  disconnectedSockets := tidy.disconnectedSockets
  sendsNothing := tidy.sendsNothing
  received socket member :=
    mem_pushNew.mpr ((mem_pushNew.mp member).imp_left (tidy.received socket))
  created socket member := by
    rcases mem_pushNew.mp member with listed | rfl
    · exact List.mem_cons_of_mem _ (tidy.created socket listed)
    · exact List.mem_cons_self
  failed socket member := (tidy.failed socket member).imp_right (List.mem_cons_of_mem _)
  registered socket member := by
    rcases mem_pushNew.mp member with listed | rfl
    · exact (tidy.registered socket listed).imp_right fun old => mem_pushNew.mpr (Or.inl old)
    · exact Or.inr (mem_pushNew.mpr (Or.inr rfl))
  listener := by
    intro member
    rcases List.mem_cons.mp member with same | old
    · exact apart same.symm
    · exact tidy.listener old

theorem enlistAll (apart : ∀ accepted ∈ rest, accepted.socket ≠ server.listenerSocket) :
    Tidy (rest.foldl TCPServer.enlist server) := by
  have both : Tidy (rest.foldl TCPServer.enlist server) ∧
      (rest.foldl TCPServer.enlist server).listenerSocket = server.listenerSocket := by
    refine List.foldlRecOn (motive := fun state =>
      Tidy state ∧ state.listenerSocket = server.listenerSocket) _ _ ⟨tidy, rfl⟩ ?_
    rintro state ⟨kept, same⟩ accepted member
    refine ⟨kept.enlist ?_, same⟩
    rw [same]
    exact apart accepted member
  exact both.1

/-- Every allowed call keeps the lists together. -/
theorem step (stepped : Op.AllowedStep server op next) : Tidy next := by
  rcases stepped with ⟨allowed, ran⟩
  cases op with
  | poll kernel =>
      rcases allowed with ⟨deletes, reported, fresh⟩
      rcases poll_eq_ok_iff.mp ran with ⟨-, -, rfl⟩
      rw [cleanup_eq] at reported ⊢
      have cleaned : Tidy (server.without kernel.deleted server.disconnectedSockets) :=
        tidy.without fun socket _ registered => deletes socket registered
      refine (cleaned.handleEvents reported).enlistAll ?_
      rw [(sameConnections_handleEvents _ _).listenerSocket]
      exact fun accepted member => (fresh accepted member).2
  | del result socket =>
      cases ran
      rw [del_eq]
      refine tidy.without ?_
      intro other member registered
      cases List.mem_singleton.mp member
      exact allowed registered
  | sendAndRecv incoming outgoing =>
      rcases transfers_of_step ran with ⟨traffic, rfl, -⟩
      exact { tidy with }

end Kept

theorem of_run (tidy : Tidy start) (run : Run Op.AllowedStep start ops last) : Tidy last :=
  run.invariant Tidy tidy fun kept stepped => kept.step stepped

end Tidy

/-- A connection that is registered nowhere and in no list but `disconnected_sockets_`. -/
structure Retired (server : TCPServer) (socket : ℕ) : Prop where
  created : socket ∈ server.heap
  unregistered : socket ∉ server.registered
  sockets : socket ∉ server.sockets
  receiveSockets : socket ∉ server.receiveSockets
  sendSockets : socket ∉ server.sendSockets

namespace Retired

/-- A connection that is deleted is gone. -/
theorem of_without (created : socket ∈ server.heap) (member : socket ∈ dead)
    (deletes : socket ∈ server.registered → deleted socket ≠ -1) :
    Retired (server.without deleted dead) socket where
  created := created
  unregistered registered := by
    rcases List.mem_filter.mp registered with ⟨registered, kept⟩
    exact of_decide_eq_true kept ⟨member, deletes registered⟩
  sockets := by simp [TCPServer.without, member]
  receiveSockets := by simp [TCPServer.without, member]
  sendSockets := by simp [TCPServer.without, member]

section Kept

variable (retired : Retired server socket)

include retired

theorem without : Retired (server.without deleted dead) socket where
  created := retired.created
  unregistered member := retired.unregistered (List.mem_filter.mp member).1
  sockets member := retired.sockets (List.mem_filter.mp member).1
  receiveSockets member := retired.receiveSockets (List.mem_filter.mp member).1
  sendSockets member := retired.sendSockets (List.mem_filter.mp member).1

/-- Only registered sockets are reported, so no event brings the connection back. -/
theorem handleEvent (reported : event.socket ∈ server.registered) :
    Retired (server.handleEvent event) socket := by
  have same := sameConnections_handleEvent server event
  have apart : socket ≠ event.socket := by
    rintro rfl
    exact retired.unregistered reported
  refine ⟨?_, ?_, ?_, ?_, ?_⟩
  · rw [same.heap]
    exact retired.created
  · rw [same.registered]
    exact retired.unregistered
  · rw [same.sockets]
    exact retired.sockets
  · intro member
    rcases mem_receiveSockets_handleEvent member with old | ⟨new, -⟩
    · exact retired.receiveSockets old
    · exact apart new
  · intro member
    rcases mem_sendSockets_handleEvent member with old | ⟨new, -⟩
    · exact retired.sendSockets old
    · exact apart new

/-- A new socket has another address. -/
theorem enlist (fresh : accepted.socket ≠ socket) : Retired (server.enlist accepted) socket where
  created := List.mem_cons_of_mem _ retired.created
  unregistered member :=
    (mem_pushNew.mp member).elim retired.unregistered fun same => fresh same.symm
  sockets member := (mem_pushNew.mp member).elim retired.sockets fun same => fresh same.symm
  receiveSockets member :=
    (mem_pushNew.mp member).elim retired.receiveSockets fun same => fresh same.symm
  sendSockets := retired.sendSockets

theorem handleEvents (reported : ∀ event ∈ events, event.socket ∈ server.registered) :
    Retired (events.foldl TCPServer.handleEvent server) socket := by
  apply handleEvents_keep (Retired · socket) retired
  intro state kept same event member
  exact kept.handleEvent (same ▸ reported event member)

theorem enlistAll (fresh : ∀ accepted ∈ rest, accepted.socket ≠ socket) :
    Retired (rest.foldl TCPServer.enlist server) socket :=
  List.foldlRecOn (motive := fun state => Retired state socket) _ _ retired
    fun _ kept accepted member => kept.enlist (fresh accepted member)

end Kept

/-- What is gone once the disconnected sockets are deleted is gone after the `poll`. -/
theorem of_cleanup (retired : Retired (server.cleanup kernel.deleted) socket)
    (allowed : Op.Allowed server (.poll kernel)) (stepped : Op.Step server (.poll kernel) next) :
    Retired next socket := by
  have created : socket ∈ server.heap := by
    have created := retired.created
    rwa [cleanup_eq] at created
  rcases allowed with ⟨-, reported, fresh⟩
  rcases poll_eq_ok_iff.mp stepped with ⟨-, -, rfl⟩
  refine (retired.handleEvents fun event member => (reported event member).1).enlistAll ?_
  rintro accepted member rfl
  exact (fresh accepted member).1 created

theorem step (retired : Retired server socket) (stepped : Op.AllowedStep server op next) :
    Retired next socket := by
  rcases stepped with ⟨allowed, ran⟩
  cases op with
  | poll kernel =>
      have cleaned : Retired (server.cleanup kernel.deleted) socket := by
        rw [cleanup_eq]
        exact retired.without
      exact cleaned.of_cleanup allowed ran
  | del result other =>
      cases ran
      rw [del_eq]
      exact retired.without
  | sendAndRecv incoming outgoing =>
      rcases transfers_of_step ran with ⟨traffic, rfl, -⟩
      exact { retired with }

/-- Its buffers are not touched, however a `sendAndRecv` ends. -/
theorem traffic_sendAndRecv (retired : Retired server socket) (incoming outgoing : ℕ → Transfer) :
    (finalState (sendAndRecv incoming outgoing server)).traffic socket =
      server.traffic socket := by
  rcases transfers_sendAndRecv incoming outgoing server with ⟨traffic, ended, kept⟩
  rw [ended]
  refine kept socket fun member => ?_
  exact (List.mem_append.mp member).elim retired.receiveSockets retired.sendSockets

end Retired

/-- A connection that was reported as failed. -/
structure Failed (server : TCPServer) (socket : ℕ) : Prop where
  created : socket ∈ server.heap
  disconnected : socket ∈ server.disconnectedSockets

namespace Failed

theorem handleEvent (failed : Failed server socket) : Failed (server.handleEvent event) socket where
  created := (sameConnections_handleEvent server event).heap ▸ failed.created
  disconnected := disconnectedSockets_subset_handleEvent failed.disconnected

theorem enlist (failed : Failed server socket) : Failed (server.enlist accepted) socket where
  created := List.mem_cons_of_mem _ failed.created
  disconnected := failed.disconnected

/-- Nothing is taken out of `disconnected_sockets_`. -/
theorem step (failed : Failed server socket) (stepped : Op.Step server op next) :
    Failed next socket := by
  cases op with
  | poll kernel =>
      rcases poll_eq_ok_iff.mp stepped with ⟨-, -, rfl⟩
      have cleaned : Failed (server.cleanup kernel.deleted) socket := by
        rw [cleanup_eq]
        exact ⟨failed.created, failed.disconnected⟩
      have handled : Failed ((server.batch kernel).foldl TCPServer.handleEvent
          (server.cleanup kernel.deleted)) socket :=
        handleEvents_keep (Failed · socket) cleaned fun _ kept _ _ _ => kept.handleEvent
      exact List.foldlRecOn (motive := fun state => Failed state socket) _ _ handled
        fun _ kept _ _ => kept.enlist
  | del result other =>
      cases stepped
      exact ⟨failed.created, failed.disconnected⟩
  | sendAndRecv incoming outgoing =>
      rcases transfers_of_step stepped with ⟨traffic, rfl, -⟩
      exact ⟨failed.created, failed.disconnected⟩

/-- The next `poll` deletes the connection. -/
theorem retired_of_poll (failed : Failed server socket)
    (stepped : Op.AllowedStep server (.poll kernel) next) : Retired next socket := by
  have cleaned : Retired (server.cleanup kernel.deleted) socket := by
    rw [cleanup_eq]
    exact Retired.of_without failed.created failed.disconnected (stepped.1.1 socket)
  exact cleaned.of_cleanup stepped.1 stepped.2

theorem of_run (failed : Failed server socket) (run : Run Op.AllowedStep server ops last) :
    Failed last socket :=
  run.invariant (Failed · socket) failed fun kept stepped => kept.step stepped.2

/-- From the end of the next `poll` on the connection is gone. -/
theorem retired_of_run (failed : Failed server socket) (run : Run Op.AllowedStep server ops last) :
    (∃ op ∈ ops, op.polls = true) → Retired last socket := by
  induction run with
  | nil => simp
  | @snoc ops state next op run stepped ih =>
      rintro ⟨other, member, polls⟩
      rcases List.mem_append.mp member with earlier | final
      · exact (ih ⟨other, earlier, polls⟩).step stepped
      · cases List.mem_singleton.mp final
        cases op with
        | poll kernel => exact (failed.of_run run).retired_of_poll stepped
        | del result socket => cases polls
        | sendAndRecv incoming outgoing => cases polls

end Failed

/-- In every run of a listening server no list holds a socket twice, and what is received from or
sent to is listed. A connection in `disconnected_sockets_` is, from the end of the next `poll` on,
in no other list, and `sendAndRecv` does not touch it. -/
theorem socketLists_of_run (listening : Listening start)
    (run : Run Op.AllowedStep start ops last) :
    (last.sockets.Nodup ∧ last.receiveSockets.Nodup ∧ last.sendSockets.Nodup ∧
        last.disconnectedSockets.Nodup) ∧
      (∀ socket, socket ∈ last.receiveSockets ∨ socket ∈ last.sendSockets →
        socket ∈ last.sockets) ∧
      ∀ socket ∈ last.disconnectedSockets, socket ≠ last.listenerSocket →
        ∀ more later, Run Op.AllowedStep last more later → (∃ op ∈ more, op.polls = true) →
          socket ∉ later.sockets ∧ socket ∉ later.receiveSockets ∧ socket ∉ later.sendSockets ∧
            ∀ incoming outgoing,
              (finalState (sendAndRecv incoming outgoing later)).traffic socket =
                later.traffic socket := by
  have tidy := (Tidy.of_listening listening).of_run run
  refine ⟨⟨tidy.sockets, tidy.receiveSockets, ?_, tidy.disconnectedSockets⟩, ?_, ?_⟩
  · simp [tidy.sendsNothing]
  · rintro socket (receiving | sending)
    · exact tidy.received socket receiving
    · simp [tidy.sendsNothing] at sending
  · intro socket member notListener more later runMore polled
    have failed : Failed last socket :=
      ⟨(tidy.failed socket member).resolve_left notListener, member⟩
    have retired := failed.retired_of_run runMore polled
    exact ⟨retired.sockets, retired.receiveSockets, retired.sendSockets,
      retired.traffic_sendAndRecv⟩

/-- A listening server; the addresses of its connections are to be positive. -/
def sampleServer : TCPServer where
  efd := 3
  listenerSocket := 0
  fd := Function.update (fun _ => -1) 0 4
  traffic _ := TCPSocket.new (fun _ => 0) fun _ => 0
  registered := [0]
  resources := { openDescriptors := [4, 3] }

def sampleAccepted (socket : ℕ) : Accepted where
  fd := Int32.ofNat (socket + 4)
  getFlags := 2
  setFlags := 0
  noDelay := 0
  socket := socket
  sendBuffer _ := 0
  recvBuffer _ := 0
  added := 0
  error := ""

theorem sampleAccepted_succeeds (socket : ℕ) : (sampleAccepted socket).Succeeds := by
  change SocketUtils.setNonBlocking 2 0 = true ∧ SocketUtils.setNoDelay 0 = true ∧
    (0 : Int32) ≠ -1
  decide

theorem sampleServer_listening : Listening sampleServer := ⟨rfl, rfl, rfl, rfl, rfl, rfl⟩

/-- A poll that deletes what it should. -/
def samplePoll (ready : List EpollEvent) (accepted : List Accepted) : Op :=
  .poll { deleted := fun _ => 0, ready := ready, accepted := accepted }

/-- Two connections are accepted, and one of them becomes readable and hangs up at once. -/
def sampleOps : List Op :=
  [samplePoll [{ events := epollin, socket := 0 }] [sampleAccepted 1, sampleAccepted 2],
    samplePoll [{ events := epollin ||| epollhup, socket := 1 }] []]

instance (server : TCPServer) (op : Op) : Decidable (op.Allowed server) :=
  match op with
  | .poll _ => inferInstanceAs (Decidable (_ ∧ _ ∧ _))
  | .del _ _ => inferInstanceAs (Decidable (_ → _))
  | .sendAndRecv _ _ => inferInstanceAs (Decidable True)

theorem sampleServer_steps : ∃ middle last later,
    Op.AllowedStep sampleServer
        (samplePoll [{ events := epollin, socket := 0 }] [sampleAccepted 1, sampleAccepted 2])
        middle ∧
      Op.AllowedStep middle (samplePoll [{ events := epollin ||| epollhup, socket := 1 }] [])
        last ∧
      Op.AllowedStep last (samplePoll [] []) later ∧
      last.disconnectedSockets = [1] ∧ last.listenerSocket = 0 :=
  ⟨_, _, _, ⟨by decide, poll_eq_ok_iff.mpr ⟨by decide, by decide, rfl⟩⟩,
    ⟨by decide, poll_eq_ok_iff.mpr ⟨by decide, by decide, rfl⟩⟩,
    ⟨by decide, poll_eq_ok_iff.mpr ⟨by decide, by decide, rfl⟩⟩, rfl, rfl⟩

theorem socketLists_sample : ∃ last later,
    Run Op.AllowedStep sampleServer sampleOps last ∧
      Run Op.AllowedStep last [samplePoll [] []] later ∧ last.disconnectedSockets = [1] ∧
      1 ∉ later.sockets ∧ 1 ∉ later.receiveSockets ∧ 1 ∉ later.sendSockets := by
  rcases sampleServer_steps with
    ⟨middle, last, later, accepts, fails, deletes, disconnected, listener⟩
  have run : Run Op.AllowedStep sampleServer sampleOps last :=
    (Run.nil.snoc accepts).snoc fails
  have runMore : Run Op.AllowedStep last [samplePoll [] []] later := Run.nil.snoc deletes
  rcases socketLists_of_run sampleServer_listening run with ⟨-, -, gone⟩
  have member : 1 ∈ last.disconnectedSockets := by simp [disconnected]
  have notListener : 1 ≠ last.listenerSocket := by simp [listener]
  rcases gone 1 member notListener _ later runMore ⟨_, List.mem_singleton_self _, rfl⟩ with
    ⟨sockets, receiveSockets, sendSockets, -⟩
  exact ⟨last, later, run, runMore, disconnected, sockets, receiveSockets, sendSockets⟩

end QuantEngine.TCPServer
