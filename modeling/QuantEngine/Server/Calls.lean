import QuantEngine.Library.Run
import QuantEngine.TCPServer

/-!
# What the calls of the server leave

A call that returns has changed the server in a way that its arguments
determine: `poll` deletes, handles the events it was given and enlists the new
connections, and `sendAndRecv` changes the buffers of the sockets it visits and
nothing else.
-/

namespace QuantEngine.TCPServer

open Exec Distinct Runs

variable {server next last : TCPServer} {socket : ℕ} {sockets : List ℕ} {result : Int32}
  {deleted : ℕ → Int32} {kernel : PollResults} {accepted : Accepted} {rest : List Accepted}
  {events : List EpollEvent} {done : PUnit} {transfers : ℕ → Transfer} {received : Bool}
  {message : String} {condition : Bool} {op : Op} {incoming outgoing : ℕ → Transfer}

/-- The call returns. -/
def Op.Step (server : TCPServer) (op : Op) (next : TCPServer) : Prop :=
  op.run server = .ok ⟨⟩ next

theorem assert_eq_ok_iff :
    assert condition message server = .ok done next ↔ condition = true ∧ server = next := by
  cases condition <;> simp [assert]

theorem assert_bind_eq_ok_iff {α : Type} {following : PUnit → ServerM α} {value : α} :
    (assert condition message >>= following) server = .ok value next ↔
      condition = true ∧ following ⟨⟩ server = .ok value next := by
  cases condition with
  | false => simp [assert, run_bind_of_error (run_throw server (Fault.assertFailed message))]
  | true => simp [assert]

theorem assertFailed_of_assert {fault : Fault}
    (stopped : assert condition message server = .error fault last) :
    ∃ message, fault = .assertFailed message := by
  cases condition with
  | false =>
      cases stopped
      exact ⟨message, rfl⟩
  | true => cases stopped

/-- The server without these sockets. Those whose deletion fails stay registered. -/
def without (server : TCPServer) (deleted : ℕ → Int32) (dead : List ℕ) : TCPServer :=
  { server with
    registered := server.registered.filter fun socket => ¬(socket ∈ dead ∧ deleted socket ≠ -1)
    sockets := server.sockets.filter fun socket => socket ∉ dead
    receiveSockets := server.receiveSockets.filter fun socket => socket ∉ dead
    sendSockets := server.sendSockets.filter fun socket => socket ∉ dead }

theorem filter_removeAll (dead list : List ℕ) :
    (removeAll socket list).filter (fun other => other ∉ dead) =
      list.filter fun other => other ∉ socket :: dead := by
  rw [removeAll, List.filter_filter]
  apply List.filter_congr
  intro other _
  simp [Bool.and_comm]

theorem filter_registered (dead registered : List ℕ) :
    (if deleted socket ≠ -1 then removeAll socket registered else registered).filter
        (fun other => ¬(other ∈ dead ∧ deleted other ≠ -1)) =
      registered.filter fun other => ¬(other ∈ socket :: dead ∧ deleted other ≠ -1) := by
  split
  case isTrue succeeds =>
      rw [removeAll, List.filter_filter]
      apply List.filter_congr
      intro other _
      by_cases same : other = socket
      · simp [same, succeeds]
      · simp [same]
  case isFalse fails =>
      apply List.filter_congr
      intro other _
      by_cases same : other = socket
      · simp [same, not_not.mp fails]
      · simp [same]

/-- Deleting one socket after the other filters each list once. -/
theorem foldl_del (deleted : ℕ → Int32) (dead : List ℕ) :
    dead.foldl (fun server socket => server.del (deleted socket) socket) server =
      server.without deleted dead := by
  induction dead generalizing server with
  | nil => simp [without]
  | cons socket dead ih =>
      rw [List.foldl_cons, ih]
      simp only [without, del, epollDel, filter_removeAll, filter_registered]

theorem cleanup_eq (deleted : ℕ → Int32) (server : TCPServer) :
    server.cleanup deleted = server.without deleted server.disconnectedSockets :=
  foldl_del deleted server.disconnectedSockets

theorem del_eq (result : Int32) (socket : ℕ) (server : TCPServer) :
    server.del result socket = server.without (fun _ => result) [socket] :=
  foldl_del (fun _ => result) [socket]

/-- What handling events leaves alone. -/
structure SameConnections (server next : TCPServer) : Prop where
  listenerSocket : next.listenerSocket = server.listenerSocket
  sockets : next.sockets = server.sockets
  registered : next.registered = server.registered
  heap : next.heap = server.heap
  fd : next.fd = server.fd
  traffic : next.traffic = server.traffic
  resources : next.resources = server.resources

theorem SameConnections.trans {middle : TCPServer} (front : SameConnections server middle)
    (back : SameConnections middle next) : SameConnections server next where
  listenerSocket := back.listenerSocket.trans front.listenerSocket
  sockets := back.sockets.trans front.sockets
  registered := back.registered.trans front.registered
  heap := back.heap.trans front.heap
  fd := back.fd.trans front.fd
  traffic := back.traffic.trans front.traffic
  resources := back.resources.trans front.resources

theorem sameConnections_handleEvent (server : TCPServer) (event : EpollEvent) :
    SameConnections server (server.handleEvent event) := by
  unfold handleEvent
  split <;> exact ⟨rfl, rfl, rfl, rfl, rfl, rfl, rfl⟩

theorem sameConnections_handleEvents (server : TCPServer) (events : List EpollEvent) :
    SameConnections server (events.foldl handleEvent server) := by
  refine List.foldlRecOn (motive := fun state => SameConnections server state) _ _
    ⟨rfl, rfl, rfl, rfl, rfl, rfl, rfl⟩ ?_
  exact fun state same event _ => same.trans (sameConnections_handleEvent state event)

/-- What every event keeps is kept by all; the interest list stays the same meanwhile. -/
theorem handleEvents_keep (kept : TCPServer → Prop) (start : kept server)
    (keeps : ∀ state, kept state → state.registered = server.registered →
      ∀ event ∈ events, kept (state.handleEvent event)) :
    kept (events.foldl handleEvent server) := by
  have both : kept (events.foldl handleEvent server) ∧
      (events.foldl handleEvent server).registered = server.registered := by
    refine List.foldlRecOn (motive := fun state : TCPServer =>
      kept state ∧ state.registered = server.registered) _ _ ⟨start, rfl⟩ ?_
    rintro state ⟨holds, same⟩ event member
    refine ⟨keeps state holds same event member, ?_⟩
    rw [(sameConnections_handleEvent state event).registered, same]
  exact both.1

section Handling

variable {event : EpollEvent}

/-- Only the socket of a readable event is added, and never the listener. -/
theorem mem_receiveSockets_handleEvent
    (member : socket ∈ (server.handleEvent event).receiveSockets) :
    socket ∈ server.receiveSockets ∨ socket = event.socket ∧ socket ≠ server.listenerSocket := by
  unfold handleEvent at member
  by_cases announced : announces server.listenerSocket event = true
  · rw [if_pos announced] at member
    exact Or.inl member
  · rw [if_neg announced] at member
    dsimp only at member
    split at member
    case isFalse => exact Or.inl member
    case isTrue readable =>
        refine (mem_pushNew.mp member).imp_right fun same => ⟨same, ?_⟩
        rintro rfl
        exact announced (by simp [announces, same, readable])

theorem mem_sendSockets_handleEvent (member : socket ∈ (server.handleEvent event).sendSockets) :
    socket ∈ server.sendSockets ∨ socket = event.socket ∧ event.events &&& epollout ≠ 0 := by
  unfold handleEvent at member
  split at member
  · exact Or.inl member
  · dsimp only at member
    split at member
    case isFalse => exact Or.inl member
    case isTrue writable => exact (mem_pushNew.mp member).imp_right fun same => ⟨same, writable⟩

theorem mem_disconnectedSockets_handleEvent
    (member : socket ∈ (server.handleEvent event).disconnectedSockets) :
    socket ∈ server.disconnectedSockets ∨ socket = event.socket := by
  unfold handleEvent at member
  split at member
  · exact Or.inl member
  · dsimp only at member
    split at member
    · exact mem_pushNew.mp member
    · exact Or.inl member

theorem disconnectedSockets_subset_handleEvent (member : socket ∈ server.disconnectedSockets) :
    socket ∈ (server.handleEvent event).disconnectedSockets := by
  unfold handleEvent
  split
  · exact member
  · dsimp only
    split
    · exact mem_pushNew.mpr (Or.inl member)
    · exact member

theorem nodup_handleEvent (receiving : server.receiveSockets.Nodup)
    (sending : server.sendSockets.Nodup) (disconnected : server.disconnectedSockets.Nodup) :
    (server.handleEvent event).receiveSockets.Nodup ∧
      (server.handleEvent event).sendSockets.Nodup ∧
      (server.handleEvent event).disconnectedSockets.Nodup := by
  unfold handleEvent
  split
  · exact ⟨receiving, sending, disconnected⟩
  · dsimp only
    refine ⟨?_, ?_, ?_⟩ <;> split <;> first | assumption | exact nodup_pushNew ‹_›

end Handling

/-- What a connection that is accepted leaves. -/
def enlist (server : TCPServer) (accepted : Accepted) : TCPServer where
  efd := server.efd
  listenerSocket := server.listenerSocket
  sockets := pushNew accepted.socket server.sockets
  receiveSockets := pushNew accepted.socket server.receiveSockets
  sendSockets := server.sendSockets
  disconnectedSockets := server.disconnectedSockets
  heap := accepted.socket :: server.heap
  fd := Function.update server.fd accepted.socket accepted.fd
  traffic := Function.update server.traffic accepted.socket
    (TCPSocket.new accepted.sendBuffer accepted.recvBuffer)
  registered := pushNew accepted.socket server.registered
  resources := { server.resources with
    openDescriptors := accepted.fd :: server.resources.openDescriptors }

/-- The calls made for the connection succeed. -/
def Accepted.Succeeds (accepted : Accepted) : Prop :=
  SocketUtils.setNonBlocking accepted.getFlags accepted.setFlags ∧
    SocketUtils.setNoDelay accepted.noDelay ∧ accepted.added ≠ -1

instance (accepted : Accepted) : Decidable accepted.Succeeds :=
  inferInstanceAs (Decidable (_ ∧ _))

theorem run_epollAdd (result : Int32) (socket : ℕ) (server : TCPServer) :
    epollAdd result socket server = .ok (result ≠ -1) { server with
      registered :=
        if result ≠ -1 then pushNew socket server.registered else server.registered } := rfl

theorem acceptOne_eq_ok_iff :
    acceptOne accepted server = .ok done next ↔
      accepted.Succeeds ∧ server.enlist accepted = next := by
  rw [acceptOne, run_modify_bind, assert_bind_eq_ok_iff, run_modify_bind,
    run_bind_of_ok (run_epollAdd _ _ _), assert_bind_eq_ok_iff, run_modify, Bool.and_eq_true,
    decide_eq_true_iff, Accepted.Succeeds, and_assoc, and_assoc, and_assoc]
  refine and_congr_right fun _ => and_congr_right fun _ => and_congr_right fun succeeds => ?_
  simp only [if_pos succeeds]
  exact ⟨fun ran => by cases ran; rfl, fun same => by rw [← same]; rfl⟩

/-- Accepting can only stop at an assertion. -/
theorem acceptOne_assertFailed {fault : Fault}
    (stopped : acceptOne accepted server = .error fault last) :
    ∃ message, fault = .assertFailed message := by
  rw [acceptOne, run_modify_bind] at stopped
  rcases run_bind_eq_error_iff.mp stopped with stopped | ⟨_, _, -, stopped⟩
  · exact assertFailed_of_assert stopped
  rw [run_modify_bind, run_bind_of_ok (run_epollAdd _ _ _)] at stopped
  rcases run_bind_eq_error_iff.mp stopped with stopped | ⟨_, _, -, stopped⟩
  · exact assertFailed_of_assert stopped
  · cases stopped

theorem acceptAll_assertFailed {fault : Fault}
    (stopped : acceptAll rest server = .error fault last) :
    ∃ message, fault = .assertFailed message := by
  induction rest generalizing server with
  | nil => cases stopped
  | cons accepted rest ih =>
      rcases run_bind_eq_error_iff.mp stopped with stopped | ⟨_, _, -, stopped⟩
      · exact acceptOne_assertFailed stopped
      · exact ih stopped

theorem acceptAll_eq_ok_iff :
    acceptAll rest server = .ok done next ↔
      (∀ accepted ∈ rest, accepted.Succeeds) ∧ rest.foldl enlist server = next := by
  induction rest generalizing server with
  | nil => simp [acceptAll]
  | cons accepted rest ih =>
      rw [acceptAll, run_bind_eq_ok_iff]
      simp only [acceptOne_eq_ok_iff, ih, List.forall_mem_cons, List.foldl_cons]
      constructor
      · rintro ⟨_, _, ⟨succeeds, rfl⟩, others, same⟩
        exact ⟨⟨succeeds, others⟩, same⟩
      · rintro ⟨⟨succeeds, others⟩, same⟩
        exact ⟨⟨⟩, _, ⟨succeeds, rfl⟩, others, same⟩

/-- The events that `epoll_wait` hands out to a `poll`. -/
def batch (server : TCPServer) (kernel : PollResults) : List EpollEvent :=
  kernel.ready.take server.maxEvents.toNatClampNeg

/-- The connections that a `poll` accepts. -/
def newcomers (server : TCPServer) (kernel : PollResults) : List Accepted :=
  if (server.batch kernel).any (announces server.listenerSocket) then kernel.accepted else []

theorem epollWait_fits (fits : (server.batch kernel).length ≤ eventsLength) (state : TCPServer) :
    epollWait server.maxEvents kernel.ready state = .ok (server.batch kernel) state := by
  rw [epollWait]
  exact (run_ite state _ _ _).trans (if_pos fits)

theorem epollWait_beyond (beyond : eventsLength < (server.batch kernel).length)
    (state : TCPServer) :
    epollWait server.maxEvents kernel.ready state = .error .outOfRange state := by
  rw [epollWait]
  exact (run_ite state _ _ _).trans (if_neg (Nat.not_le_of_lt beyond))

theorem poll_eq_ok_iff :
    poll kernel server = .ok done next ↔
      (server.batch kernel).length ≤ eventsLength ∧
        (∀ accepted ∈ server.newcomers kernel, accepted.Succeeds) ∧
        (server.newcomers kernel).foldl enlist
          ((server.batch kernel).foldl handleEvent (server.cleanup kernel.deleted)) = next := by
  rw [poll, run_get_bind, run_modify_bind]
  rcases Nat.lt_or_ge eventsLength (server.batch kernel).length with beyond | fits
  · rw [run_bind_of_error (epollWait_beyond beyond _)]
    simp [Nat.not_le_of_lt beyond]
  · rw [run_bind_of_ok (epollWait_fits fits _), run_modify_bind, run_ite, newcomers]
    split
    case isTrue => simp only [acceptAll_eq_ok_iff, fits, true_and]
    case isFalse => simp [fits]

theorem poll_returns (fits : (server.batch kernel).length ≤ eventsLength)
    (succeeds : ∀ accepted ∈ server.newcomers kernel, accepted.Succeeds) :
    ∃ next, Op.Step server (.poll kernel) next :=
  ⟨_, poll_eq_ok_iff.mpr ⟨fits, succeeds, rfl⟩⟩

/-- A `poll` writes beyond `events_` exactly when it is handed more events than fit there. -/
theorem poll_outOfRange_iff :
    (∃ last, poll kernel server = .error .outOfRange last) ↔
      eventsLength < (server.batch kernel).length := by
  rw [poll, run_get_bind, run_modify_bind]
  rcases Nat.lt_or_ge eventsLength (server.batch kernel).length with beyond | fits
  · rw [run_bind_of_error (epollWait_beyond beyond _)]
    simp [beyond]
  · rw [run_bind_of_ok (epollWait_fits fits _), run_modify_bind, run_ite]
    refine iff_of_false ?_ (Nat.not_lt_of_ge fits)
    rintro ⟨last, stopped⟩
    split at stopped
    case isTrue =>
        rcases acceptAll_assertFailed stopped with ⟨message, same⟩
        cases same
    case isFalse => cases stopped

/-- Only the buffers of these sockets have changed. -/
def Transfers (visited : List ℕ) (server next : TCPServer) : Prop :=
  ∃ traffic, next = { server with traffic := traffic } ∧
    ∀ socket, socket ∉ visited → traffic socket = server.traffic socket

section Transfers

variable {visited : List ℕ} {transfer : Transfer}

theorem Transfers.refl (server : TCPServer) : Transfers visited server server :=
  ⟨_, rfl, fun _ _ => rfl⟩

theorem Transfers.trans {middle : TCPServer} (front : Transfers visited server middle)
    (back : Transfers visited middle next) : Transfers visited server next := by
  rcases front with ⟨traffic, rfl, kept⟩
  rcases back with ⟨traffic', rfl, kept'⟩
  exact ⟨traffic', rfl, fun socket unvisited =>
    (kept' socket unvisited).trans (kept socket unvisited)⟩

theorem keeps_transferOn (member : socket ∈ visited) :
    Keeps (Transfers visited) (transferOn transfer socket) := by
  intro server
  have kept : ∀ own, Transfers visited server
      { server with traffic := Function.update server.traffic socket own } := by
    intro own
    refine ⟨_, rfl, fun other unvisited => Function.update_of_ne ?_ own server.traffic⟩
    rintro rfl
    exact unvisited member
  unfold transferOn
  dsimp only
  split <;> exact kept _

theorem keeps_transferAll (members : ∀ socket ∈ sockets, socket ∈ visited) :
    Keeps (Transfers visited) (transferAll transfers sockets) := by
  induction sockets with
  | nil => exact Keeps.pure Transfers.refl false
  | cons socket rest ih =>
      rcases List.forall_mem_cons.mp members with ⟨member, membersRest⟩
      refine Keeps.bind Transfers.trans (keeps_transferOn member) fun _ => ?_
      refine Keeps.bind Transfers.trans (ih membersRest) fun _ => ?_
      exact Keeps.pure Transfers.refl _

/-- `sendAndRecv` visits the sockets of two lists, however it ends. -/
theorem transfers_sendAndRecv (incoming outgoing : ℕ → Transfer) (server : TCPServer) :
    Transfers (server.receiveSockets ++ server.sendSockets) server
      (finalState (sendAndRecv incoming outgoing server)) := by
  have first : Keeps (Transfers (server.receiveSockets ++ server.sendSockets))
      (transferAll incoming server.receiveSockets) :=
    keeps_transferAll fun _ member => List.mem_append_left _ member
  have second : Keeps (Transfers (server.receiveSockets ++ server.sendSockets))
      (transferAll outgoing server.sendSockets) :=
    keeps_transferAll fun _ member => List.mem_append_right _ member
  rw [sendAndRecv, run_get_bind]
  cases ran : transferAll incoming server.receiveSockets server with
  | error fault middle =>
      rw [run_bind_of_error ran, finalState_error]
      simpa [ran] using first server
  | ok received middle =>
      have kept := first.of_ok ran
      have sameSend : middle.sendSockets = server.sendSockets := by
        rcases kept with ⟨_, rfl, -⟩
        rfl
      rw [run_bind_of_ok ran, run_get_bind, finalState_bind_pure, sameSend]
      exact kept.trans (second middle)

theorem transfers_of_step (stepped : Op.Step server (.sendAndRecv incoming outgoing) next) :
    Transfers (server.receiveSockets ++ server.sendSockets) server next := by
  have ended := congrArg finalState stepped
  rw [Op.run, finalState_bind_pure, finalState_ok] at ended
  rw [← ended]
  exact transfers_sendAndRecv incoming outgoing server

end Transfers

end QuantEngine.TCPServer
