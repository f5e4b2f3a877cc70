import QuantEngine.Server.Lists

/-!
# The length of `events_`

`poll` asks for one event more than there are sockets, and `events_` has a fixed
length. Nothing relates the two: `accept` is called until it returns -1, and
every connection it returns is listed. So a `poll` that leaves as many sockets
as `events_` has elements makes the next one ask for more than fits there.
-/

namespace QuantEngine.TCPServer

open Exec Distinct Runs

variable {start server next last : TCPServer} {kernel : PollResults} {rest : List Accepted}
  {result : Int32} {socket : ℕ} {op : Op} {ops : List Op} {deleted : ℕ → Int32} {dead : List ℕ}

/-- The sockets that a `poll` keeps. -/
def kept (server : TCPServer) : List ℕ :=
  server.sockets.filter fun socket => socket ∉ server.disconnectedSockets

/-- The listener and the sockets that a `poll` keeps or accepts fit into `events_`. -/
def Op.Fits (server : TCPServer) : Op → Prop
  | .poll kernel => 1 + server.kept.length + (server.newcomers kernel).length ≤ eventsLength
  | .del _ _ => True
  | .sendAndRecv _ _ => True

instance (server : TCPServer) (op : Op) : Decidable (op.Fits server) :=
  match op with
  | .poll _ => inferInstanceAs (Decidable (_ ≤ _))
  | .del _ _ => inferInstanceAs (Decidable True)
  | .sendAndRecv _ _ => inferInstanceAs (Decidable True)

/-- The call fits and returns. -/
def Op.FittingStep (server : TCPServer) (op : Op) (next : TCPServer) : Prop :=
  op.Fits server ∧ op.Step server next

theorem length_sockets_enlistAll_le :
    (rest.foldl enlist server).sockets.length ≤ server.sockets.length + rest.length := by
  induction rest generalizing server with
  | nil => exact Nat.le_refl _
  | cons accepted rest ih =>
      have one : (server.enlist accepted).sockets.length ≤ server.sockets.length + 1 :=
        length_pushNew_le
      have others : (rest.foldl enlist (server.enlist accepted)).sockets.length ≤
          (server.enlist accepted).sockets.length + rest.length := ih
      rw [List.foldl_cons, List.length_cons]
      omega

/-- New sockets with addresses of their own are all added. -/
theorem length_sockets_enlistAll (nodup : (rest.map Accepted.socket).Nodup)
    (fresh : ∀ accepted ∈ rest, accepted.socket ∉ server.sockets) :
    (rest.foldl enlist server).sockets.length = server.sockets.length + rest.length := by
  induction rest generalizing server with
  | nil => rfl
  | cons accepted rest ih =>
      rw [List.map_cons, List.nodup_cons] at nodup
      rcases List.forall_mem_cons.mp fresh with ⟨unlisted, freshRest⟩
      have one : (server.enlist accepted).sockets.length = server.sockets.length + 1 :=
        length_pushNew unlisted
      have unlistedRest : ∀ other ∈ rest, other.socket ∉ (server.enlist accepted).sockets := by
        intro other member listed
        rcases mem_pushNew.mp listed with old | same
        · exact freshRest other member old
        · exact nodup.1 (same ▸ List.mem_map_of_mem member)
      rw [List.foldl_cons, ih nodup.2 unlistedRest, one, List.length_cons]
      omega

theorem sockets_handled (server : TCPServer) (kernel : PollResults) :
    ((server.batch kernel).foldl handleEvent (server.cleanup kernel.deleted)).sockets =
      server.kept := by
  rw [(sameConnections_handleEvents _ _).sockets, cleanup_eq]
  rfl

/-- A call that fits leaves room for the listener. -/
theorem Op.FittingStep.room (room : 1 + server.sockets.length ≤ eventsLength)
    (stepped : Op.FittingStep server op next) : 1 + next.sockets.length ≤ eventsLength := by
  rcases stepped with ⟨fits, ran⟩
  cases op with
  | poll kernel =>
      rcases poll_eq_ok_iff.mp ran with ⟨-, -, rfl⟩
      have fits' : 1 + server.kept.length + (server.newcomers kernel).length ≤ eventsLength := fits
      refine Nat.le_trans (Nat.add_le_add_left length_sockets_enlistAll_le 1) ?_
      rw [sockets_handled]
      omega
  | del result socket =>
      cases ran
      have shorter : (removeAll socket server.sockets).length ≤ server.sockets.length :=
        List.length_filter_le _ _
      exact Nat.le_trans (Nat.add_le_add_left shorter 1) room
  | sendAndRecv incoming outgoing =>
      rcases transfers_of_step ran with ⟨traffic, rfl, -⟩
      exact room

theorem maxEvents_of_room (room : 1 + server.sockets.length ≤ eventsLength) :
    server.maxEvents.toInt = 1 + server.sockets.length ∧
      server.maxEvents.toNatClampNeg = 1 + server.sockets.length := by
  have small : 1 + server.sockets.length < 2 ^ 31 := by
    have length : eventsLength = 1024 := rfl
    omega
  exact ⟨Int32.toInt_ofNat_of_lt small, Int32.toNatClampNeg_ofNat_of_lt small⟩

/-- The condition on a `poll` is exact when the new sockets have addresses of their own, as long as
the number of sockets is an `int`. -/
theorem maxEvents_le_iff_of_poll (nodup : ((server.newcomers kernel).map Accepted.socket).Nodup)
    (fresh : ∀ accepted ∈ server.newcomers kernel, accepted.socket ∉ server.sockets)
    (stepped : Op.Step server (.poll kernel) next)
    (small : 2 * (1 + next.sockets.length) < Int32.size) :
    next.maxEvents.toInt ≤ eventsLength ↔ Op.Fits server (.poll kernel) := by
  have small' : 1 + next.sockets.length < 2 ^ 31 := by
    have size : Int32.size = 4294967296 := rfl
    omega
  have value : next.maxEvents.toInt = _ := Int32.toInt_ofNat_of_lt small'
  have length : next.sockets.length = server.kept.length + (server.newcomers kernel).length := by
    rcases poll_eq_ok_iff.mp stepped with ⟨-, -, rfl⟩
    rw [length_sockets_enlistAll nodup, sockets_handled]
    rw [sockets_handled]
    exact fun accepted member listed =>
      fresh accepted member (List.mem_filter.mp listed).1
  rw [value, length]
  change _ ↔ 1 + server.kept.length + (server.newcomers kernel).length ≤ eventsLength
  omega

/-- In a run in which every `poll` leaves room for the listener, `max_events` never exceeds the
length of `events_`, and no `poll` writes beyond it. -/
theorem maxEvents_le_of_run (listening : Listening start)
    (run : Run Op.FittingStep start ops last) :
    last.maxEvents.toInt ≤ eventsLength ∧
      ∀ kernel final, poll kernel last ≠ .error .outOfRange final := by
  have room : 1 + last.sockets.length ≤ eventsLength := by
    refine run.invariant (fun server => 1 + server.sockets.length ≤ eventsLength) ?_
      fun room stepped => stepped.room room
    rw [listening.sockets]
    decide
  rcases maxEvents_of_room room with ⟨value, asked⟩
  refine ⟨by omega, ?_⟩
  intro kernel final stopped
  have beyond := poll_outOfRange_iff.mp ⟨final, stopped⟩
  have handed : (last.batch kernel).length ≤ last.maxEvents.toNatClampNeg :=
    List.length_take_le _ _
  omega

/-- Two connections fit. -/
theorem maxEvents_le_sample : ∃ last, Run Op.FittingStep sampleServer sampleOps last ∧
    last.maxEvents.toInt ≤ eventsLength ∧
      ∀ kernel final, poll kernel last ≠ .error .outOfRange final := by
  have steps : ∃ middle last,
      Op.FittingStep sampleServer
          (samplePoll [{ events := epollin, socket := 0 }] [sampleAccepted 1, sampleAccepted 2])
          middle ∧
        Op.FittingStep middle
          (samplePoll [{ events := epollin ||| epollhup, socket := 1 }] []) last :=
    ⟨_, _, ⟨by decide, poll_eq_ok_iff.mpr ⟨by decide, by decide, rfl⟩⟩,
      ⟨by decide, poll_eq_ok_iff.mpr ⟨by decide, by decide, rfl⟩⟩⟩
  rcases steps with ⟨middle, last, accepts, fails⟩
  have run : Run Op.FittingStep sampleServer sampleOps last :=
    (Run.nil.snoc accepts).snoc fails
  exact ⟨last, run, maxEvents_le_of_run sampleServer_listening run⟩

/-- As many new connections as `events_` has elements. -/
def sampleCrowd : List Accepted := (List.range eventsLength).map fun i => sampleAccepted (i + 1)

/-- All sockets become readable, the listener included. -/
def sampleStorm : List EpollEvent :=
  (List.range (1 + eventsLength)).map fun socket => { events := epollin, socket := socket }

/-- After one poll that accepts them, the next one may be handed more events than fit. -/
theorem maxEvents_exceeds : Listening sampleServer ∧ ∃ last,
    Run Op.AllowedStep sampleServer [samplePoll [{ events := epollin, socket := 0 }] sampleCrowd]
      last ∧
    ¬last.maxEvents.toInt ≤ eventsLength ∧
    ∃ kernel final, poll kernel last = .error .outOfRange final := by
  let kernel : PollResults :=
    { deleted := fun _ => 0
      ready := [{ events := epollin, socket := 0 }]
      accepted := sampleCrowd }
  have newcomers : sampleServer.newcomers kernel = sampleCrowd := by
    rw [TCPServer.newcomers, if_pos (by decide)]
  have crowd : ∀ accepted ∈ sampleCrowd, ∃ i, accepted = sampleAccepted (i + 1) := by
    intro accepted member
    rcases List.mem_map.mp member with ⟨i, -, rfl⟩
    exact ⟨i, rfl⟩
  have nodup : (sampleCrowd.map Accepted.socket).Nodup := by
    rw [sampleCrowd, List.map_map]
    exact List.nodup_range.map fun _ _ same => Nat.succ.inj same
  have succeeds : ∀ accepted ∈ sampleServer.newcomers kernel, accepted.Succeeds := by
    rw [newcomers]
    intro accepted member
    rcases crowd accepted member with ⟨i, rfl⟩
    exact sampleAccepted_succeeds (i + 1)
  rcases poll_returns (by decide) succeeds with ⟨last, stepped⟩
  have allowed : Op.Allowed sampleServer (.poll kernel) := by
    refine ⟨by decide, by decide, ?_⟩
    rw [newcomers]
    intro accepted member
    rcases crowd accepted member with ⟨i, rfl⟩
    exact ⟨List.not_mem_nil, Nat.succ_ne_zero i⟩
  have length : last.sockets.length = eventsLength := by
    rcases poll_eq_ok_iff.mp stepped with ⟨-, -, rfl⟩
    rw [newcomers, length_sockets_enlistAll nodup, sockets_handled]
    · simp [sampleCrowd, TCPServer.kept, sampleServer]
    · rw [sockets_handled]
      simp [TCPServer.kept, sampleServer]
  have small : 1 + last.sockets.length < 2 ^ 31 := by
    rw [length]
    decide
  refine ⟨sampleServer_listening, last, Run.nil.snoc ⟨allowed, stepped⟩, ?_, ?_⟩
  · rw [show last.maxEvents.toInt = _ from Int32.toInt_ofNat_of_lt small, length]
    decide
  · let storm : PollResults := { deleted := fun _ => 0, ready := sampleStorm, accepted := [] }
    refine ⟨storm, poll_outOfRange_iff.mpr ?_⟩
    have asked : last.maxEvents.toNatClampNeg = _ := Int32.toNatClampNeg_ofNat_of_lt small
    have all : sampleStorm.length = 1 + eventsLength := by simp [sampleStorm]
    have handed : (last.batch storm).length = min (1 + eventsLength) sampleStorm.length := by
      rw [batch, asked, length, List.length_take]
    omega

end QuantEngine.TCPServer
