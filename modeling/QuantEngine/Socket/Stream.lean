import QuantEngine.Socket.Load

/-!
# Whole runs of a socket

Any sequence of calls on a socket, whatever its system calls find and whatever
its receive callback calls. A run ends in one of three ways: it returns, it
exits because the kernel did not take a flush as a whole, or it writes beyond a
buffer. The last happens exactly when a `send` finds too little room, because
`send` does not look at the room that is left where `sendAndRecv` offers no more
than that to `recvmsg`.
-/

namespace QuantEngine.TCPSocket

variable {load : Load} {traffic : Traffic} {op : Op} {ops : List Op}

/-- A call whose `send`s find room returns with the load it should have, or exits at its flush. -/
theorem Carries.run_fits (carries : Carries load traffic) (fits : load.Fits op) :
    (∃ after next, load.step op = some after ∧ op.run traffic = .ok ⟨⟩ next ∧
      Carries after next) ∨
    load.step op = none ∧ ∃ last,
      op.run traffic = .error (.assertFailed "Could not send all the send buffer") last ∧
        InBuffers last.socket := by
  cases op with
  | send data =>
      obtain ⟨next, ran, carriesNext⟩ := carries.send fits
      exact .inl ⟨_, next, rfl, ran, carriesNext⟩
  | sendAndRecv arrived callback room =>
      obtain ⟨nRecv, middle, received, carriesMiddle⟩ := carries.receive fits
      by_cases flushes : (load.beforeFlush arrived callback).Flushes room
      · left
        obtain ⟨next, flushed, carriesNext⟩ := carriesMiddle.flush flushes
        refine ⟨_, next, if_pos flushes, ?_, carriesNext⟩
        apply Exec.run_bind_of_ok
        rw [TCPSocket.sendAndRecv, Exec.run_bind_of_ok received, Exec.run_bind_of_ok flushed]
        rfl
      · right
        obtain ⟨last, stopped, inBuffers⟩ := carriesMiddle.flush_short flushes
        refine ⟨if_neg flushes, last, ?_, inBuffers⟩
        apply Exec.run_bind_of_error
        rw [TCPSocket.sendAndRecv, Exec.run_bind_of_ok received]
        exact Exec.run_bind_of_error stopped

theorem Carries.run_beyond (carries : Carries load traffic) (beyond : ¬load.Fits op) :
    ∃ last, op.run traffic = .error .outOfRange last := by
  cases op with
  | send data => exact ⟨_, carries.send_beyond beyond⟩
  | sendAndRecv arrived callback room =>
      obtain ⟨some, full⟩ := Classical.not_imp.mp beyond
      obtain ⟨last, stopped⟩ := carries.receive_beyond some full
      exact ⟨last, Exec.run_bind_of_error (Exec.run_bind_of_error stopped)⟩

theorem Carries.runAll_fits (carries : Carries load traffic) (fits : load.AllFit ops) :
    (∃ after last, load.steps ops = some after ∧ runAll ops traffic = .ok ⟨⟩ last ∧
      Carries after last) ∨
    load.steps ops = none ∧ ∃ last,
      runAll ops traffic = .error (.assertFailed "Could not send all the send buffer") last ∧
        InBuffers last.socket := by
  induction ops generalizing load traffic with
  | nil => exact .inl ⟨load, traffic, rfl, rfl, carries⟩
  | cons op ops ih =>
      rcases carries.run_fits fits.1 with ⟨after, next, stepped, ran, carriesNext⟩ |
        ⟨exited, last, stopped, inBuffers⟩
      · rw [runAll, Exec.run_bind_of_ok ran, Load.steps, stepped]
        exact ih carriesNext (fits.2 after stepped)
      · rw [Load.steps, exited]
        exact .inr ⟨rfl, last, Exec.run_bind_of_error stopped, inBuffers⟩

theorem Carries.runAll_beyond (carries : Carries load traffic) (beyond : ¬load.AllFit ops) :
    ∃ last, runAll ops traffic = .error .outOfRange last := by
  induction ops generalizing load traffic with
  | nil => exact absurd trivial beyond
  | cons op ops ih =>
      by_cases fits : load.Fits op
      · obtain ⟨next, stepped, restBeyond⟩ :
            ∃ next, load.step op = some next ∧ ¬next.AllFit ops := by
          by_contra allFit
          push Not at allFit
          exact beyond ⟨fits, allFit⟩
        rcases carries.run_fits fits with ⟨after, state, stepped', ran, carriesNext⟩ |
          ⟨exited, _⟩
        · rw [stepped] at stepped'
          cases stepped'
          rw [runAll, Exec.run_bind_of_ok ran]
          exact ih carriesNext restBeyond
        · rw [stepped] at exited
          cases exited
      · obtain ⟨last, stopped⟩ := carries.run_beyond fits
        exact ⟨last, Exec.run_bind_of_error stopped⟩

theorem Load.AllFit.append_left {front rest : List Op} (fits : load.AllFit (front ++ rest)) :
    load.AllFit front := by
  induction front generalizing load with
  | nil => trivial
  | cons op front ih => exact ⟨fits.1, fun next stepped => ih (fits.2 next stepped)⟩

/-- For as long as the process is not terminated, no byte is lost, repeated or reordered between
`send` and the kernel, nor between `recvmsg` and the receive buffer; this includes the states that
a callback sees and leaves. -/
theorem streams_of_allFit (sendBuffer recvBuffer : ℕ → UInt8) (ops : List Op)
    (fits : Load.AllFit ⟨0, 0⟩ ops) :
    (∀ last, runAll ops (new sendBuffer recvBuffer) = .ok ⟨⟩ last → Streams last) ∧
    (∀ fault last, runAll ops (new sendBuffer recvBuffer) = .error fault last →
      fault = .assertFailed "Could not send all the send buffer") ∧
    ∀ middle arrived callback nRecv last, runAll ops (new sendBuffer recvBuffer) = .ok ⟨⟩ middle →
      receive arrived callback middle = .ok nRecv last → Streams last := by
  rcases (new_carries sendBuffer recvBuffer).runAll_fits fits with
    ⟨load, state, _, ran, carries⟩ | ⟨_, state, stopped, _⟩
  · rw [ran]
    refine ⟨?_, ?_, ?_⟩
    · rintro last ⟨⟩
      exact carries.streams
    · rintro fault last ⟨⟩
    · rintro middle arrived callback nRecv last ⟨⟩ received
      by_cases room : load.arrival arrived ≠ [] →
          (load.receive (load.arrival arrived)).CallbackFits callback
      · obtain ⟨result, next, returned, carriesNext⟩ := carries.receive room
        rw [returned] at received
        cases received
        exact carriesNext.streams
      · obtain ⟨some, full⟩ := Classical.not_imp.mp room
        obtain ⟨next, beyond⟩ := carries.receive_beyond some full
        rw [beyond] at received
        cases received
  · rw [stopped]
    refine ⟨?_, ?_, ?_⟩
    · rintro last ⟨⟩
    · rintro fault last ⟨⟩
      rfl
    · rintro middle arrived callback nRecv last ⟨⟩

/-- A request and a reply: the callback answers the byte that arrives and resets the index. -/
theorem streams_of_allFit_reply :
    ∃ last, runAll [.send [1, 2], .sendAndRecv (some [7]) [.send [9], .reset] (some 3)]
        (new (fun _ => 0) fun _ => 0) = .ok ⟨⟩ last ∧ last.passed = [1, 2, 9] ∧
      last.accepted = [1, 2, 9] ∧ Streams last := by
  have fits : Load.AllFit ⟨0, 0⟩
      [.send [1, 2], .sendAndRecv (some [7]) [.send [9], .reset] (some 3)] := by decide
  have streams := (streams_of_allFit (fun _ => 0) (fun _ => 0) _ fits).1
  exact ⟨_, rfl, rfl, rfl, streams _ rfl⟩

/-- In no run of the calls, nor of the first of them, is a write beyond the end of a buffer, and
the indices do not exceed the buffers' size. -/
def StaysInBuffers (traffic : Traffic) (ops : List Op) : Prop :=
  ∀ front rest, ops = front ++ rest →
    (∀ last, runAll front traffic ≠ .error .outOfRange last) ∧
      InBuffers (Exec.finalState (runAll front traffic)).socket

/-- The writes stay in the buffers exactly when every `send`, also one from the callback, finds
room for its data behind the bytes that are pending. `recvmsg` never writes beyond its buffer. -/
theorem staysInBuffers_iff (sendBuffer recvBuffer : ℕ → UInt8) (ops : List Op) :
    StaysInBuffers (new sendBuffer recvBuffer) ops ↔ Load.AllFit ⟨0, 0⟩ ops := by
  have carries := new_carries sendBuffer recvBuffer
  constructor
  · intro stays
    by_contra beyond
    obtain ⟨last, stopped⟩ := carries.runAll_beyond beyond
    exact (stays ops [] (List.append_nil ops).symm).1 last stopped
  · intro fits front rest whole
    subst whole
    rcases carries.runAll_fits fits.append_left with ⟨load, last, _, ran, carriesLast⟩ |
      ⟨_, last, stopped, inBuffers⟩
    · rw [ran]
      exact ⟨fun _ beyond => (by cases beyond), carriesLast.inBuffers⟩
    · rw [stopped]
      exact ⟨fun _ beyond => (by cases beyond), inBuffers⟩

/-- `send` copies data that is longer than the buffer. -/
theorem not_staysInBuffers_send (sendBuffer recvBuffer : ℕ → UInt8) {data : List UInt8}
    (overlong : tcpBufferSize < data.length) :
    ¬StaysInBuffers (new sendBuffer recvBuffer) [.send data] := by
  intro stays
  have beyond : ¬Load.Takes ⟨0, 0⟩ data := by
    intro takes
    exact absurd (Nat.zero_add data.length ▸ takes) (Nat.not_le_of_lt overlong)
  have stopped := (new_carries sendBuffer recvBuffer).send_beyond beyond
  exact (stays [.send data] [] rfl).1 _ (Exec.run_bind_of_error stopped)

/-- One byte more than the buffer has. -/
theorem not_staysInBuffers_overlong :
    ¬StaysInBuffers (new (fun _ => 0) fun _ => 0)
      [.send (List.replicate (tcpBufferSize + 1) 0)] := by
  apply not_staysInBuffers_send
  rw [List.length_replicate]
  exact Nat.lt_succ_self tcpBufferSize

end QuantEngine.TCPSocket
