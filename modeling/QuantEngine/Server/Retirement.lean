import QuantEngine.Server.Lists

/-!
# Connections that die

A connection is dead once `recvmsg` has found the end of its stream, or once an
event has reported it as failed. `sendAndRecv` returns false for a stream that
ended as it does for one without new data, so the server does not notice. A
failure is noticed, and the socket is deleted by every later `poll`, but no call
of the server closes a descriptor.

A run is watched by a record of the connections that died, and of those that the
last `poll` should have retired.
-/

namespace QuantEngine.TCPServer

open Exec Distinct Runs

/-- The sockets that are found dead during the call: an event that is handled reports a failure,
or `recvmsg` finds the end of the stream. -/
def Op.found (server : TCPServer) : Op → List ℕ
  | .poll kernel =>
      ((server.batch kernel).filter fun event =>
        !announces server.listenerSocket event &&
          event.events &&& (epollerr ||| epollhup) ≠ 0).map EpollEvent.socket
  | .del _ _ => []
  | .sendAndRecv incoming outgoing =>
      server.receiveSockets.filter (fun socket => (incoming socket).arrived = some []) ++
        server.sendSockets.filter fun socket => (outgoing socket).arrived = some []

/-- The accepted connections that die during the call. -/
def Op.deaths (server : TCPServer) (op : Op) : List ℕ :=
  (op.found server).filter fun socket => socket ∈ server.heap

/-- A server with the connections that died since the last `poll` began, and those that died
before. -/
structure Watch where
  server : TCPServer
  recent : List ℕ := []
  due : List ℕ := []

/-- The record after a call that leaves `server`. What died before a `poll` is due at its end. -/
def Watch.record (watch : Watch) (op : Op) (server : TCPServer) : Watch :=
  if op.polls then
    { server := server, recent := op.deaths watch.server, due := watch.due ++ watch.recent }
  else
    { server := server, recent := watch.recent ++ op.deaths watch.server, due := watch.due }

/-- The call returns and is recorded. -/
def Watch.Step (watch : Watch) (op : Op) (next : Watch) : Prop :=
  ∃ server, op.Step watch.server server ∧ next = watch.record op server

/-- The connections that are due have left all lists and their descriptors are closed, so that no
more descriptors are open than there are other connections. -/
structure RetiresDead (watch : Watch) : Prop where
  sockets : ∀ socket ∈ watch.due, socket ∉ watch.server.sockets
  receiveSockets : ∀ socket ∈ watch.due, socket ∉ watch.server.receiveSockets
  sendSockets : ∀ socket ∈ watch.due, socket ∉ watch.server.sendSockets
  disconnectedSockets : ∀ socket ∈ watch.due, socket ∉ watch.server.disconnectedSockets
  closed : ∀ socket ∈ watch.due,
    watch.server.fd socket ∉ watch.server.resources.openDescriptors
  descriptors :
    (watch.server.heap.filter fun socket =>
        watch.server.fd socket ∈ watch.server.resources.openDescriptors).length ≤
      (watch.server.heap.filter fun socket => socket ∉ watch.due).length

variable {start server next : TCPServer} {socket : ℕ} {accepted : Accepted} {op : Op}
  {ops : List Op} {watch following last : Watch}

/-- Every connection that was accepted has an open descriptor. -/
def DescriptorsOpen (server : TCPServer) : Prop :=
  ∀ socket ∈ server.heap, server.fd socket ∈ server.resources.openDescriptors

theorem DescriptorsOpen.enlist (isOpen : DescriptorsOpen server) :
    DescriptorsOpen (server.enlist accepted) := by
  intro socket member
  change Function.update server.fd accepted.socket accepted.fd socket ∈
    accepted.fd :: server.resources.openDescriptors
  by_cases same : socket = accepted.socket
  · rw [same, Function.update_self]
    exact List.mem_cons_self
  · rw [Function.update_of_ne same]
    exact List.mem_cons_of_mem _ (isOpen socket ((List.mem_cons.mp member).resolve_left same))

/-- No call closes a descriptor or forgets a connection. -/
theorem DescriptorsOpen.step (isOpen : DescriptorsOpen server)
    (stepped : Op.Step server op next) :
    DescriptorsOpen next ∧ ∀ socket ∈ server.heap, socket ∈ next.heap := by
  cases op with
  | poll kernel =>
      rcases poll_eq_ok_iff.mp stepped with ⟨-, -, rfl⟩
      have same := sameConnections_handleEvents (server.cleanup kernel.deleted)
        (server.batch kernel)
      rw [cleanup_eq] at same ⊢
      refine List.foldlRecOn (motive := fun state : TCPServer =>
        DescriptorsOpen state ∧ ∀ socket ∈ server.heap, socket ∈ state.heap) _ _ ⟨?_, ?_⟩ ?_
      · rw [DescriptorsOpen, same.heap, same.fd, same.resources]
        exact isOpen
      · rw [same.heap]
        exact fun _ member => member
      · rintro state ⟨kept, subset⟩ accepted -
        exact ⟨kept.enlist, fun socket member => List.mem_cons_of_mem _ (subset socket member)⟩
  | del result other =>
      cases stepped
      exact ⟨isOpen, fun _ member => member⟩
  | sendAndRecv incoming outgoing =>
      rcases transfers_of_step stepped with ⟨traffic, rfl, -⟩
      exact ⟨isOpen, fun _ member => member⟩

/-- The connections that are recorded as dead were accepted, and their descriptors are open. -/
structure Unclosed (watch : Watch) : Prop where
  isOpen : DescriptorsOpen watch.server
  recent : ∀ socket ∈ watch.recent, socket ∈ watch.server.heap
  due : ∀ socket ∈ watch.due, socket ∈ watch.server.heap

theorem Unclosed.step (unclosed : Unclosed watch) (stepped : Watch.Step watch op following) :
    Unclosed following := by
  rcases stepped with ⟨server, ran, rfl⟩
  rcases unclosed.isOpen.step ran with ⟨isOpen, subset⟩
  have deaths : ∀ socket ∈ op.deaths watch.server, socket ∈ server.heap := by
    intro socket member
    exact subset socket (of_decide_eq_true (List.mem_filter.mp member).2)
  have recent := fun socket member => subset socket (unclosed.recent socket member)
  have due := fun socket member => subset socket (unclosed.due socket member)
  unfold Watch.record
  split
  · exact ⟨isOpen, deaths, fun socket member =>
      (List.mem_append.mp member).elim (due socket) (recent socket)⟩
  · exact ⟨isOpen, fun socket member =>
      (List.mem_append.mp member).elim (recent socket) (deaths socket), due⟩

/-- Dead connections are retired in the states in which none is due, and in no other. -/
theorem retiresDead_iff_of_run (listening : Listening start)
    (run : Run Watch.Step { server := start } ops last) : RetiresDead last ↔ last.due = [] := by
  have unclosed : Unclosed last := by
    refine run.invariant Unclosed ⟨?_, by simp, by simp⟩ fun kept stepped => kept.step stepped
    intro socket member
    rw [listening.heap] at member
    cases member
  constructor
  · intro retires
    apply List.eq_nil_iff_forall_not_mem.mpr
    intro socket member
    exact retires.closed socket member (unclosed.isOpen socket (unclosed.due socket member))
  · intro none
    refine ⟨?_, ?_, ?_, ?_, ?_, ?_⟩
    case refine_6 => simpa [none] using List.length_filter_le _ _
    all_goals simp [none]

theorem Watch.step_of_poll {kernel : PollResults} {recent due dead : List ℕ}
    (stepped : Op.Step server (.poll kernel) next)
    (deaths : (Op.poll kernel).deaths server = dead) :
    Watch.Step ⟨server, recent, due⟩ (.poll kernel) ⟨next, dead, due ++ recent⟩ :=
  ⟨next, stepped, by rw [← deaths]; rfl⟩

theorem Watch.step_of_sendAndRecv {incoming outgoing : ℕ → Transfer} {recent due dead : List ℕ}
    (stepped : Op.Step server (.sendAndRecv incoming outgoing) next)
    (deaths : (Op.sendAndRecv incoming outgoing).deaths server = dead) :
    Watch.Step ⟨server, recent, due⟩ (.sendAndRecv incoming outgoing)
      ⟨next, recent ++ dead, due⟩ :=
  ⟨next, stepped, by rw [← deaths]; rfl⟩

/-- A connection is accepted. -/
def sampleAccept : Op := samplePoll [{ events := epollin, socket := 0 }] [sampleAccepted 1]

/-- Every stream that is received from has ended. -/
def sampleEnd : Op :=
  .sendAndRecv (fun _ => { arrived := some [], callback := [], room := none })
    fun _ => { arrived := none, callback := [], room := none }

theorem sampleEnd_runs : ∃ second third : TCPServer,
    Run Watch.Step { server := sampleServer } [sampleAccept, sampleEnd] ⟨second, [1], []⟩ ∧
      Watch.Step ⟨second, [1], []⟩ (samplePoll [] []) ⟨third, [], [1]⟩ ∧
      third.sockets = [1] ∧ third.fd 1 ∈ third.resources.openDescriptors := by
  have steps : ∃ first second third : TCPServer,
      Op.Step sampleServer sampleAccept first ∧ Op.Step first sampleEnd second ∧
        Op.Step second (samplePoll [] []) third ∧
        Op.deaths sampleServer sampleAccept = [] ∧ Op.deaths first sampleEnd = [1] ∧
        third.sockets = [1] ∧ third.fd 1 ∈ third.resources.openDescriptors :=
    ⟨_, _, _, poll_eq_ok_iff.mpr ⟨by decide, by decide, rfl⟩, rfl,
      poll_eq_ok_iff.mpr ⟨by decide, by decide, rfl⟩, by decide, by decide, rfl, by decide⟩
  rcases steps with ⟨first, second, third, accepts, ends, polls, none, dies, listed, descriptor⟩
  have quiet : Op.deaths second (samplePoll [] []) = [] := by
    simp [samplePoll, Op.deaths, Op.found, batch]
  refine ⟨second, third, ?_, Watch.step_of_poll polls quiet, listed, descriptor⟩
  exact (Run.nil.snoc (Watch.step_of_poll accepts none)).snoc
    (Watch.step_of_sendAndRecv ends dies)

/-- A connection that just died is not due yet. -/
theorem retiresDead_sample : ∃ last,
    Run Watch.Step { server := sampleServer } [sampleAccept, sampleEnd] last ∧
      last.recent = [1] ∧ RetiresDead last := by
  rcases sampleEnd_runs with ⟨second, -, run, -⟩
  exact ⟨_, run, rfl, (retiresDead_iff_of_run sampleServer_listening run).mpr rfl⟩

/-- After the next `poll` it is due. It is still listed, and its descriptor is open. -/
theorem not_retiresDead_ended : Listening sampleServer ∧ ∃ last,
    Run Watch.Step { server := sampleServer } [sampleAccept, sampleEnd, samplePoll [] []] last ∧
      last.due = [1] ∧ last.server.sockets = [1] ∧ ¬RetiresDead last := by
  rcases sampleEnd_runs with ⟨second, third, run, polls, listed, descriptor⟩
  refine ⟨sampleServer_listening, _, run.snoc polls, rfl, listed, fun retires => ?_⟩
  exact retires.closed 1 (List.mem_singleton_self 1) descriptor

end QuantEngine.TCPServer
