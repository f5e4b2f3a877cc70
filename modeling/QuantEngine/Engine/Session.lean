import QuantEngine.Engine.Dispatch
import QuantEngine.Queue.Rules

/-!
# The engine's thread and its destruction

The thread that runs `run` as the consumer of the request queue, against the
thread that writes the requests and the one that calls `stop` and destroys the
engine. Each access to `run_`, to `incoming_request_` and to the queue is one
step. The destructor does not join the thread: it clears `run_`, sleeps, and
then sets `incoming_request_` to null, while the thread may still be in its
loop.

Left out are the calls of the logger, which has a queue and a thread of its own.
-/

namespace QuantEngine.MatchingEngine

open LFQueue LFQueue.Threads Runs

/-- Where the thread is in `run`. -/
inductive Runner where
  /-- In front of the test of `run_`. -/
  | testing
  /-- About to load `incoming_request_` in order to call `getNextToRead`. -/
  | fetching
  | calling
  /-- In `getNextToRead`. -/
  | comparing
  /-- With a request that is neither read nor processed. -/
  | processing
  /-- About to load `incoming_request_` in order to call `updataReadIndex`. -/
  | releasing
  | updating
  /-- In `updataReadIndex`. -/
  | advancing
  | finished
  /-- The process has ended. -/
  | stopped (fault : Fault)
  deriving DecidableEq

/-- Where the owner of the engine is. -/
inductive Owner where
  | owning
  /-- In the destructor, with `run_` cleared: the sleep. -/
  | sleeping
  /-- In the destructor, with `incoming_request_` set to null. -/
  | nulled
  /-- The memory of the engine is released. -/
  | gone
  deriving DecidableEq

structure Session (numElem : ℕ) where
  threads : Threads MEClientRequest numElem
  /-- `run_`, as `start` left it. -/
  run : Bool := true
  runner : Runner := .testing
  owner : Owner := .owning
  /-- The requests handed to `processClientRequest`. -/
  processed : List MEClientRequest := []
  /-- How many of them were handed over since `run_` was cleared. -/
  late : ℕ := 0
  /-- How many steps the thread has made since `run_` was cleared. -/
  waited : ℕ := 0

/-- A step of the engine's thread, of the thread that writes requests, or of the owner. -/
inductive SessionAction where
  | engine
  | write (request : MEClientRequest)
  | writer
  | stop
  | destroy
  deriving DecidableEq

/-- How `processClientRequest` ends the process, if it does. -/
def verdict (request : MEClientRequest) : Option Fault :=
  match (processClientRequest request : EngineM Unit 1 Unit)
    { tickerOrderBook := fun _ => (), incomingRequest := LFQueue.new 1 } with
  | .ok _ _ => none
  | .error fault _ => some fault

variable {numElem : ℕ}

namespace Session

/-- A load of `incoming_request_`, or of `run_`, in front of `place`. -/
def loadMember (session : Session numElem) (place : Runner) : Runner :=
  match session.owner with
  | .owning => place
  | .sleeping => place
  | .nulled => .stopped .nullPointer
  | .gone => .stopped .wildPointer

/-- The next access of the engine's thread. -/
def stepRunner (session : Session numElem) : Option (Session numElem) :=
  match session.runner with
  | .testing => some { session with
      runner := if session.owner = .gone then .stopped .wildPointer
        else if session.run then .fetching else .finished }
  | .fetching => some { session with runner := session.loadMember .calling }
  | .calling => (session.threads.step .getNextToRead).map fun threads => { session with
      threads := threads
      runner := .comparing }
  | .comparing => (session.threads.step .consumer).map fun threads => { session with
      threads := threads
      runner := if threads.consumer ≠ .idle then .comparing
        else if threads.next = none then .testing else .processing }
  | .processing =>
      match session.threads.next with
      | none => none
      | some slot =>
          if session.owner = .gone then some { session with runner := .stopped .wildPointer }
          else (session.threads.step .read).map fun threads => { session with
            threads := threads
            processed := session.processed ++ [session.threads.queue.store slot]
            late := if session.run then 0 else session.late + 1
            runner := match verdict (session.threads.queue.store slot) with
              | none => .releasing
              | some fault => .stopped fault }
  | .releasing => some { session with runner := session.loadMember .updating }
  | .updating => (session.threads.step .updataReadIndex).map fun threads => { session with
      threads := threads
      runner := .advancing }
  | .advancing => (session.threads.step .consumer).map fun threads => { session with
      threads := threads
      runner := if threads.consumer = .idle then .testing else .advancing }
  | .finished => none
  | .stopped _ => none

/-- The next step of the owner that destroys the engine. -/
def stepOwner (session : Session numElem) : Option (Session numElem) :=
  match session.owner with
  | .owning => some { session with run := false, owner := .sleeping }
  | .sleeping => some { session with owner := .nulled }
  | .nulled => some { session with owner := .gone }
  | .gone => none

/-- A step of a process that has not ended. -/
def stepRunning (session : Session numElem) : SessionAction → Option (Session numElem)
  | .engine => session.stepRunner.map fun next => { next with
      waited := if session.run then 0 else session.waited + 1 }
  | .write request => (session.threads.step (.getNextToWriteTo request)).map fun threads =>
      { session with threads := threads }
  | .writer => (session.threads.step .producer).map fun threads =>
      { session with threads := threads }
  | .stop => if session.owner = .owning then some { session with run := false } else none
  | .destroy => session.stepOwner

def step (session : Session numElem) (action : SessionAction) : Option (Session numElem) :=
  match session.runner with
  | .stopped _ => none
  | _ => session.stepRunning action

/-- An engine that was started on an empty queue. -/
def new (numElem : ℕ) [NeZero numElem] : Session numElem where
  threads := Threads.new numElem

end Session

section verdict

variable {Book : Type} {engine : MatchingEngine Book numElem} {request : MEClientRequest}

theorem run_processClientRequest_outside (outside : ¬request.tickerId.toNat < meMaxTickers) :
    (processClientRequest request : EngineM Book numElem Unit) engine =
      .error .outOfRange engine := by
  have faults : (orderBook request.tickerId : EngineM Book numElem Book) engine =
      .error .outOfRange engine := by
    simp [orderBook, outside]
  rw [processClientRequest, Exec.run_bind_of_error faults]

theorem run_processClientRequest_invalid (inRange : request.tickerId.toNat < meMaxTickers)
    (invalid : request.type = .invalid) :
    (processClientRequest request : EngineM Book numElem Unit) engine =
      .error (.fatal ("Received invalid client-request-type:" ++
        clientRequestTypeToString .invalid)) engine := by
  rw [processClientRequest, Exec.run_bind_of_ok (run_orderBook inRange)]
  simp [invalid]

theorem verdict_eq_none_iff : verdict request = none ↔ request.Dispatchable := by
  constructor
  · intro passes
    by_contra not
    by_cases inRange : request.tickerId.toNat < meMaxTickers
    · have invalid : request.type = .invalid := by
        cases type : request.type with
        | invalid => rfl
        | new => exact absurd ⟨Or.inl type, inRange⟩ not
        | cancel => exact absurd ⟨Or.inr type, inRange⟩ not
      rw [verdict, run_processClientRequest_invalid inRange invalid] at passes
      cases passes
    · rw [verdict, run_processClientRequest_outside inRange] at passes
      cases passes
  · intro dispatchable
    rw [verdict, run_processClientRequest dispatchable]

end verdict

/-- What a step of the producer leaves alone. -/
structure KeepsReader (threads following : Threads MEClientRequest numElem) : Prop where
  consumer : following.consumer = threads.consumer
  next : following.next = threads.next
  hasRead : following.hasRead = threads.hasRead
  read : following.read = threads.read

variable {threads following : Threads MEClientRequest numElem} {session last : Session numElem}
  {action : SessionAction} {actions : List SessionAction}

theorem keepsReader_of_write {request : MEClientRequest}
    (ran : threads.step (.getNextToWriteTo request) = some following) :
    KeepsReader threads following := by
  cases access_of_step ran
  exact ⟨rfl, rfl, rfl, rfl⟩

theorem keepsReader_of_writer (ran : threads.step .producer = some following) :
    KeepsReader threads following := by
  cases access_of_step ran <;> exact ⟨rfl, rfl, rfl, rfl⟩

namespace Runner

/-- What the place of the engine's thread says about its use of the queue. -/
def Fits (threads : Threads MEClientRequest numElem) : Runner → Prop
  | .comparing => (threads.consumer = .differing ∨
      ∃ index, threads.consumer = .comparing index) ∧ threads.hasRead = false
  | .processing => threads.consumer = .idle ∧ threads.next ≠ none ∧ threads.hasRead = false
  | .releasing => threads.consumer = .idle ∧ threads.next ≠ none ∧ threads.hasRead = true
  | .updating => threads.consumer = .idle ∧ threads.next ≠ none ∧ threads.hasRead = true
  | .advancing => (∃ index, threads.consumer = .loaded index) ∨
      threads.consumer = .advanced ∧ threads.next = none ∧ threads.hasRead = false
  | .stopped _ => True
  | _ => threads.consumer = .idle ∧ threads.next = none ∧ threads.hasRead = false

theorem Fits.of_keepsReader {runner : Runner} (fits : runner.Fits threads)
    (keeps : KeepsReader threads following) : runner.Fits following := by
  cases runner <;> simp only [Fits, keeps.consumer, keeps.next, keeps.hasRead] at fits ⊢ <;>
    exact fits

/-- How many steps the thread makes at most before it tests `run_` and finds it cleared. -/
def remaining (consumer : Consumer numElem) : Runner → ℕ
  | .testing => 1
  | .fetching => 10
  | .calling => 9
  | .comparing => if consumer = .differing then 7 else 8
  | .processing => 6
  | .releasing => 5
  | .updating => 4
  | .advancing => if consumer = .advanced then 2 else 3
  | .finished => 0
  | .stopped _ => 0

/-- How many requests the thread takes at most before it tests `run_`. -/
def taking : Runner → ℕ
  | .fetching => 1
  | .calling => 1
  | .comparing => 1
  | .processing => 1
  | _ => 0

/-- The thread has left `run`, or the process has ended. -/
def Ended : Runner → Prop
  | .finished => True
  | .stopped _ => True
  | _ => False

end Runner

/-- The destructor has gone past the sleep. -/
def Owner.Released : Owner → Prop
  | .owning => False
  | .sleeping => False
  | _ => True

/-- The last request ended the process, and no request before it did. -/
def StopsAt (fault : Fault) (processed : List MEClientRequest) : Prop :=
  ∃ front request, processed = front ++ [request] ∧ verdict request = some fault ∧
    ∀ earlier ∈ front, earlier.Dispatchable

/-- Requests end the process only at the end of `processed`. -/
def Judged (owner : Owner) (processed : List MEClientRequest) : Runner → Prop
  | .stopped fault => StopsAt fault processed ∨
      owner.Released ∧ ∀ request ∈ processed, request.Dispatchable
  | _ => ∀ request ∈ processed, request.Dispatchable

structure Serves (session : Session numElem) : Prop where
  inOrder : session.threads.ReadsInOrder
  fits : session.runner.Fits session.threads
  processed : session.processed = session.threads.read
  judged : Judged session.owner session.processed session.runner
  waited : session.waited + session.runner.remaining session.threads.consumer ≤ 10
  late : session.late + session.runner.taking ≤ 1
  running : session.run = true → session.late = 0

theorem serves_new [NeZero numElem] : Serves (Session.new numElem) where
  inOrder := readsInOrder_new
  fits := ⟨rfl, rfl, rfl⟩
  processed := rfl
  judged request member := by cases member
  waited := (by decide : 0 + 1 ≤ 10)
  late := (by decide : 0 + 0 ≤ 1)
  running _ := rfl

/-- The steps since `run_` was cleared, after one more step. -/
theorem waited_le {run : Bool} {waited before after : ℕ} (bound : waited + before ≤ 10)
    (less : after + 1 ≤ before) : (if run then 0 else waited + 1) + after ≤ 10 := by
  split <;> omega

theorem loadMember_cases (session : Session numElem) (place : Runner) :
    session.loadMember place = place ∨
      session.owner.Released ∧ ∃ fault, session.loadMember place = .stopped fault := by
  rw [Session.loadMember]
  cases session.owner with
  | owning => exact Or.inl rfl
  | sleeping => exact Or.inl rfl
  | nulled => exact Or.inr ⟨trivial, _, rfl⟩
  | gone => exact Or.inr ⟨trivial, _, rfl⟩

namespace Serves

/-- The thread uses the engine after the destructor's sleep. -/
theorem lose {fault : Fault} (serves : Serves session)
    (passed : ∀ request ∈ session.processed, request.Dispatchable)
    (going : 1 ≤ session.runner.remaining session.threads.consumer)
    (released : session.owner.Released) :
    Serves { session with
      runner := .stopped fault
      waited := if session.run then 0 else session.waited + 1 } :=
  { serves with
    fits := trivial
    judged := Or.inr ⟨released, passed⟩
    waited := waited_le serves.waited going
    late := Nat.le_trans (Nat.le_add_right _ _) serves.late }

/-- A load through the engine faults when the destructor is past the sleep. -/
theorem loadMember {place : Runner} (serves : Serves session)
    (passed : ∀ request ∈ session.processed, request.Dispatchable)
    (fits : place.Fits session.threads)
    (judged : Judged session.owner session.processed place)
    (less : place.remaining session.threads.consumer + 1 ≤
      session.runner.remaining session.threads.consumer)
    (late : session.late + place.taking ≤ 1) :
    Serves { session with
      runner := session.loadMember place
      waited := if session.run then 0 else session.waited + 1 } := by
  rcases loadMember_cases session place with stays | ⟨released, fault, faults⟩
  · rw [stays]
    exact { serves with
      fits := fits
      judged := judged
      waited := waited_le serves.waited less
      late := late }
  · rw [faults]
    exact serves.lose passed (Nat.le_trans (Nat.succ_le_succ (Nat.zero_le _)) less) released

/-- A step of the engine's thread in the queue that reads no element. -/
theorem access {access : LFQueue.Action MEClientRequest} {place : Runner} (serves : Serves session)
    (ran : session.threads.step access = some following)
    (room : session.threads.KeepsRoom access) (once : session.threads.ReadsOnce access)
    (read : following.read = session.threads.read) (fits : place.Fits following)
    (judged : Judged session.owner session.processed place)
    (less : place.remaining following.consumer + 1 ≤
      session.runner.remaining session.threads.consumer)
    (late : session.late + place.taking ≤ 1) :
    Serves { session with
      threads := following
      runner := place
      waited := if session.run then 0 else session.waited + 1 } where
  inOrder := serves.inOrder.step room once ran
  fits := fits
  processed := serves.processed.trans read.symm
  judged := judged
  waited := waited_le serves.waited less
  late := late
  running := serves.running

theorem testing (serves : Serves session) (place : session.runner = .testing) :
    Serves { session with
      runner := if session.owner = .gone then .stopped .wildPointer
        else if session.run then .fetching else .finished
      waited := if session.run then 0 else session.waited + 1 } := by
  have fits := serves.fits
  have judged := serves.judged
  have waited := serves.waited
  have late := serves.late
  have running := serves.running
  rw [place] at fits judged waited late
  by_cases gone : session.owner = .gone
  · rw [if_pos gone]
    exact serves.lose judged (by rw [place]; exact Nat.le_refl 1) (by rw [gone]; trivial)
  · rw [if_neg gone]
    by_cases set : session.run = true
    · rw [if_pos set, if_pos set]
      exact { serves with
        fits := fits
        judged := judged
        waited := Nat.le_refl 10
        late := by rw [running set]; exact Nat.le_refl 1 }
    · rw [if_neg set, if_neg set]
      exact { serves with
        fits := fits
        judged := judged
        waited := waited
        late := late }

theorem comparing (serves : Serves session) (place : session.runner = .comparing)
    (ran : session.threads.step .consumer = some following) :
    Serves { session with
      threads := following
      runner := if following.consumer ≠ .idle then .comparing
        else if following.next = none then .testing else .processing
      waited := if session.run then 0 else session.waited + 1 } := by
  have fits := serves.fits
  have judged := serves.judged
  have late := serves.late
  rw [place] at fits judged late
  have none : session.late + 0 ≤ 1 := Nat.le_trans (Nat.le_add_right _ _) late
  cases access_of_step ran with
  | findEmpty inCall same =>
      refine serves.access ran trivial trivial rfl ⟨rfl, rfl, fits.2⟩ judged ?_ none
      rw [place, inCall]
      exact (by decide : 1 + 1 ≤ 8)
  | findElement inCall differ =>
      refine serves.access ran trivial trivial rfl ⟨Or.inl rfl, fits.2⟩ judged ?_ late
      rw [place, inCall]
      exact (by decide : 7 + 1 ≤ 8)
  | returnElement inCall =>
      refine serves.access ran trivial trivial rfl ⟨rfl, by simp, fits.2⟩ judged ?_ late
      rw [place, inCall]
      exact (by decide : 6 + 1 ≤ 7)
  | storeReadIndex inCall => rcases fits.1 with other | ⟨_, other⟩ <;> cases inCall.symm.trans other
  | subElement inCall => rcases fits.1 with other | ⟨_, other⟩ <;> cases inCall.symm.trans other

theorem advancing (serves : Serves session) (place : session.runner = .advancing)
    (ran : session.threads.step .consumer = some following) :
    Serves { session with
      threads := following
      runner := if following.consumer = .idle then .testing else .advancing
      waited := if session.run then 0 else session.waited + 1 } := by
  have fits := serves.fits
  have judged := serves.judged
  have late := serves.late
  rw [place] at fits judged late
  cases access_of_step ran with
  | storeReadIndex inCall =>
      refine serves.access ran trivial trivial rfl (Or.inr ⟨rfl, rfl, rfl⟩) judged ?_ late
      rw [place, inCall]
      exact (by decide : 2 + 1 ≤ 3)
  | subElement inCall =>
      rcases fits with ⟨_, other⟩ | ⟨-, noNext, unread⟩
      · cases inCall.symm.trans other
      · refine serves.access ran trivial trivial rfl ⟨rfl, noNext, unread⟩ judged ?_ late
        rw [place, inCall]
        exact (by decide : 1 + 1 ≤ 2)
  | findEmpty inCall same =>
      rcases fits with ⟨_, other⟩ | ⟨other, -⟩ <;> cases inCall.symm.trans other
  | findElement inCall differ =>
      rcases fits with ⟨_, other⟩ | ⟨other, -⟩ <;> cases inCall.symm.trans other
  | returnElement inCall =>
      rcases fits with ⟨_, other⟩ | ⟨other, -⟩ <;> cases inCall.symm.trans other

theorem processing {slot : Fin numElem} (serves : Serves session)
    (place : session.runner = .processing) (isNext : session.threads.next = some slot)
    (ran : session.threads.step .read = some following) :
    Serves { session with
      threads := following
      processed := session.processed ++ [session.threads.queue.store slot]
      late := if session.run then 0 else session.late + 1
      runner := match verdict (session.threads.queue.store slot) with
        | none => .releasing
        | some fault => .stopped fault
      waited := if session.run then 0 else session.waited + 1 } := by
  have fits := serves.fits
  have judged := serves.judged
  have waited := serves.waited
  have late := serves.late
  rw [place] at fits judged waited late
  have noMore : (if session.run then 0 else session.late + 1) + 0 ≤ 1 := by
    split
    · decide
    · exact late
  cases access_of_step ran with
  | read idle isNext' =>
      cases isNext.symm.trans isNext'
      have room : session.threads.KeepsRoom .read := trivial
      have inOrder := serves.inOrder.step room fits.2.2 ran
      have processed : session.processed ++ [session.threads.queue.store slot] =
          session.threads.read ++ [session.threads.queue.store slot] := by
        rw [serves.processed]
      cases passes : verdict (session.threads.queue.store slot) with
      | none =>
          exact {
            inOrder := inOrder
            fits := ⟨idle, fits.2.1, rfl⟩
            processed := processed
            judged := by
              intro request member
              rcases List.mem_append.mp member with earlier | now
              · exact judged request earlier
              · rw [List.mem_singleton.mp now]
                exact verdict_eq_none_iff.mp passes
            waited := waited_le waited (Nat.le_refl _)
            late := noMore
            running := fun set => if_pos set }
      | some fault =>
          exact {
            inOrder := inOrder
            fits := trivial
            processed := processed
            judged := Or.inl ⟨_, _, rfl, passes, judged⟩
            waited := waited_le waited (by decide : 0 + 1 ≤ 6)
            late := noMore
            running := fun set => if_pos set }

/-- What a step of the engine's thread keeps. -/
theorem stepRunner (serves : Serves session) (ran : session.stepRunner = some last) :
    Serves { last with waited := if session.run then 0 else session.waited + 1 } := by
  have fits := serves.fits
  have judged := serves.judged
  have late := serves.late
  rw [Session.stepRunner] at ran
  split at ran
  case h_1 place =>
      cases ran
      exact serves.testing place
  case h_2 place =>
      cases ran
      rw [place] at fits judged late
      exact serves.loadMember judged fits judged (by rw [place]; exact Nat.le_refl _) late
  case h_3 place =>
      rcases Option.map_eq_some_iff.mp ran with ⟨following, stepped, rfl⟩
      rw [place] at fits judged late
      cases access_of_step stepped with
      | getNextToRead idle =>
          refine serves.access stepped trivial trivial rfl ⟨Or.inr ⟨_, rfl⟩, fits.2.2⟩ judged ?_
            late
          rw [place]
          exact Nat.le_refl 9
  case h_4 place =>
      rcases Option.map_eq_some_iff.mp ran with ⟨following, stepped, rfl⟩
      exact serves.comparing place stepped
  case h_5 place =>
      split at ran
      case h_1 => cases ran
      case h_2 slot isNext =>
          split at ran
          case isTrue gone =>
              cases ran
              rw [place] at judged
              exact serves.lose judged (by rw [place]; exact (by decide : 1 ≤ 6))
                (by rw [gone]; trivial)
          case isFalse =>
              rcases Option.map_eq_some_iff.mp ran with ⟨following, stepped, rfl⟩
              exact serves.processing place isNext stepped
  case h_6 place =>
      cases ran
      rw [place] at fits judged late
      exact serves.loadMember judged fits judged (by rw [place]; exact Nat.le_refl _) late
  case h_7 place =>
      rcases Option.map_eq_some_iff.mp ran with ⟨following, stepped, rfl⟩
      rw [place] at fits judged late
      cases access_of_step stepped with
      | updataReadIndex idle =>
          refine serves.access stepped trivial fits.2.2 rfl (Or.inl ⟨_, rfl⟩) judged ?_ late
          rw [place]
          exact Nat.le_refl 4
  case h_8 place =>
      rcases Option.map_eq_some_iff.mp ran with ⟨following, stepped, rfl⟩
      exact serves.advancing place stepped
  case h_9 => cases ran
  case h_10 => cases ran

/-- A step of the thread that writes requests. -/
theorem written {access : LFQueue.Action MEClientRequest} (serves : Serves session)
    (ran : session.threads.step access = some following)
    (room : session.threads.KeepsRoom access) (once : session.threads.ReadsOnce access)
    (keeps : KeepsReader session.threads following) :
    Serves { session with threads := following } :=
  { serves with
    inOrder := serves.inOrder.step room once ran
    fits := serves.fits.of_keepsReader keeps
    processed := serves.processed.trans keeps.read.symm
    waited := by
      rw [keeps.consumer]
      exact serves.waited }

theorem stepOwner (serves : Serves session) (ran : session.stepOwner = some last)
    (going : ∀ fault, session.runner ≠ .stopped fault) : Serves last := by
  have judged : ∀ owner, Judged owner session.processed session.runner := by
    have before := serves.judged
    intro owner
    cases place : session.runner with
    | stopped fault => exact absurd place (going fault)
    | _ =>
        rw [place] at before
        exact before
  rw [Session.stepOwner] at ran
  split at ran
  case h_1 =>
      cases ran
      exact { serves with judged := judged _, running := fun set => nomatch set }
  case h_2 =>
      cases ran
      exact { serves with judged := judged _ }
  case h_3 =>
      cases ran
      exact { serves with judged := judged _ }
  case h_4 => cases ran

end Serves

theorem going_of_step (ran : session.step action = some last) :
    (∀ fault, session.runner ≠ .stopped fault) ∧ session.stepRunning action = some last := by
  rw [Session.step] at ran
  split at ran
  case h_1 => cases ran
  case h_2 going => exact ⟨going, ran⟩

/-- The thread that writes requests leaves a place free in the queue. -/
def KeepsRoom (session : Session numElem) : SessionAction → Prop
  | .writer => session.threads.KeepsRoom .producer
  | _ => True

instance (session : Session numElem) (action : SessionAction) :
    Decidable (KeepsRoom session action) :=
  match action with
  | .writer => inferInstanceAs (Decidable (session.threads.KeepsRoom .producer))
  | .engine => inferInstanceAs (Decidable True)
  | .write _ => inferInstanceAs (Decidable True)
  | .stop => inferInstanceAs (Decidable True)
  | .destroy => inferInstanceAs (Decidable True)

theorem Serves.step (serves : Serves session) (ran : session.step action = some last)
    (room : KeepsRoom session action) : Serves last := by
  rcases going_of_step ran with ⟨going, running⟩
  cases action with
  | engine =>
      rcases Option.map_eq_some_iff.mp running with ⟨next, stepped, rfl⟩
      exact serves.stepRunner stepped
  | write request =>
      rcases Option.map_eq_some_iff.mp running with ⟨following, stepped, rfl⟩
      exact serves.written stepped trivial trivial (keepsReader_of_write stepped)
  | writer =>
      rcases Option.map_eq_some_iff.mp running with ⟨following, stepped, rfl⟩
      exact serves.written stepped room trivial (keepsReader_of_writer stepped)
  | stop =>
      rw [Session.stepRunning] at running
      split at running
      case isTrue =>
          cases running
          exact { serves with running := fun set => nomatch set }
      case isFalse => cases running
  | destroy => exact serves.stepOwner running going

/-- The thread never gets stuck in its loop. -/
theorem Serves.stepRunner_isSome (serves : Serves session) (going : ¬session.runner.Ended) :
    session.stepRunner.isSome := by
  have fits := serves.fits
  rw [Session.stepRunner]
  cases place : session.runner with
  | testing => rfl
  | fetching => rfl
  | calling =>
      rw [place] at fits
      simp [Threads.step, fits.1]
  | comparing =>
      rw [place] at fits
      rcases fits.1 with inCall | ⟨_, inCall⟩ <;> simp [Threads.step, stepConsumer, inCall]
  | processing =>
      rw [place] at fits
      rcases Option.ne_none_iff_exists'.mp fits.2.1 with ⟨slot, isNext⟩
      simp only [isNext]
      split <;> simp [Threads.step, fits.1, isNext]
  | releasing => rfl
  | updating =>
      rw [place] at fits
      simp [Threads.step, fits.1]
  | advancing =>
      rw [place] at fits
      rcases fits with ⟨_, inCall⟩ | ⟨inCall, -⟩ <;> simp [Threads.step, stepConsumer, inCall]
  | finished => exact absurd (by rw [place]; trivial) going
  | stopped fault => exact absurd (by rw [place]; trivial) going

theorem Runner.remaining_pos {consumer : Consumer numElem} {runner : Runner}
    (going : ¬runner.Ended) : 0 < runner.remaining consumer := by
  cases runner with
  | comparing => simp only [remaining]; split <;> decide
  | advancing => simp only [remaining]; split <;> decide
  | finished => exact absurd trivial going
  | stopped fault => exact absurd trivial going
  | _ => simp only [remaining]; decide

/-- A step of the threads and the owner that leaves a place free in the queue. -/
def Step (session : Session numElem) (action : SessionAction) (last : Session numElem) : Prop :=
  KeepsRoom session action ∧ session.step action = some last

theorem serves_of_run [NeZero numElem] (run : Run Step (Session.new numElem) actions session) :
    Serves session :=
  run.invariant Serves serves_new fun serves ⟨room, ran⟩ => serves.step ran room

/-- The thread hands over the requests written, in order and each once, up to the first one that
ends the process. It is never stuck, and once `run_` is cleared it takes at most one more request
and at most ten more steps. -/
theorem served_of_run [NeZero numElem] (run : Run Step (Session.new numElem) actions session) :
    session.processed <+: session.threads.written ∧
      Judged session.owner session.processed session.runner ∧
      session.late ≤ 1 ∧ session.waited ≤ 10 ∧
      (session.runner.Ended ∨ session.waited < 10 ∧ session.stepRunner.isSome) := by
  have serves := serves_of_run run
  have waited := serves.waited
  refine ⟨?_, serves.judged, Nat.le_trans (Nat.le_add_right _ _) serves.late,
    Nat.le_trans (Nat.le_add_right _ _) waited, ?_⟩
  · rw [serves.processed, serves.inOrder.read]
    exact List.take_prefix _ _
  · by_cases ended : session.runner.Ended
    · exact Or.inl ended
    · have more : 0 < session.runner.remaining session.threads.consumer :=
        Runner.remaining_pos ended
      exact Or.inr ⟨by omega, serves.stepRunner_isSome ended⟩

/-- A request is taken and then the engine is destroyed with the thread in its loop. -/
def destroyedWhileRunning : List SessionAction :=
  [.write newRequest, .writer, .writer, .writer, .writer, .engine, .engine, .engine, .engine,
    .engine, .engine, .destroy]

/-- Four steps after `run_` is cleared, the thread has not left its loop. -/
theorem served_of_run_sample : ∃ session : Session 2,
    Run Step (Session.new 2) (destroyedWhileRunning ++ List.replicate 4 .engine) session ∧
      session.processed = [newRequest] ∧ session.waited = 4 ∧
      session.processed <+: session.threads.written ∧
      Judged session.owner session.processed session.runner ∧ session.late ≤ 1 ∧
      session.waited ≤ 10 ∧
      (session.runner.Ended ∨ session.waited < 10 ∧ session.stepRunner.isSome) := by
  have executed : (execute (permitted KeepsRoom Session.step) (Session.new 2)
      (destroyedWhileRunning ++ List.replicate 4 .engine)).any (fun (session : Session 2) =>
        session.processed = [newRequest] ∧ session.waited = 4) = true := by
    decide +kernel
  rcases (Option.any_eq_true _ _).mp executed with ⟨session, reached, facts⟩
  rcases of_decide_eq_true facts with ⟨processed, waited⟩
  have run : Run Step (Session.new 2) _ session := Run.of_permitted reached
  exact ⟨session, run, processed, waited, served_of_run run⟩

instance (runner : Runner) : Decidable runner.Ended :=
  match runner with
  | .finished => isTrue trivial
  | .stopped _ => isTrue trivial
  | .testing => isFalse id
  | .fetching => isFalse id
  | .calling => isFalse id
  | .comparing => isFalse id
  | .processing => isFalse id
  | .releasing => isFalse id
  | .updating => isFalse id
  | .advancing => isFalse id

/-- The sleep of the destructor is long enough for ten steps of the thread. -/
def Sleeps (session : Session numElem) (action : SessionAction) : Prop :=
  KeepsRoom session action ∧
    (action = .destroy → session.owner = .sleeping → 10 ≤ session.waited ∨ session.runner.Ended)

instance (session : Session numElem) (action : SessionAction) : Decidable (Sleeps session action) :=
  inferInstanceAs (Decidable (_ ∧ (_ → _ → _ ∨ _)))

/-- A run in which the destructor has slept long enough. -/
structure Outlives (session : Session numElem) : Prop where
  serves : Serves session
  released : session.owner.Released → session.runner.Ended
  stopped : ∀ fault, session.runner = .stopped fault → StopsAt fault session.processed

theorem owner_of_stepRunner (ran : session.stepRunner = some last) :
    last.owner = session.owner := by
  rw [Session.stepRunner] at ran
  split at ran
  case h_1 => cases ran; rfl
  case h_2 => cases ran; rfl
  case h_5 =>
      split at ran
      case h_1 => cases ran
      case h_2 =>
          split at ran
          case isTrue => cases ran; rfl
          case isFalse =>
              rcases Option.map_eq_some_iff.mp ran with ⟨following, -, rfl⟩
              rfl
  case h_6 => cases ran; rfl
  case h_9 => cases ran
  case h_10 => cases ran
  all_goals
    rcases Option.map_eq_some_iff.mp ran with ⟨following, -, rfl⟩
    rfl

theorem stepRunner_of_ended (ended : session.runner.Ended) : session.stepRunner = none := by
  rw [Session.stepRunner]
  cases place : session.runner <;> rw [place] at ended <;> first | rfl | exact ended.elim

namespace Outlives

/-- While the engine is there, only a request ends the process. -/
theorem engine (outlives : Outlives session) (ran : session.step .engine = some last) :
    Outlives last := by
  have serves := outlives.serves.step ran trivial
  rcases Option.map_eq_some_iff.mp (going_of_step ran).2 with ⟨next, stepped, rfl⟩
  have owner : next.owner = session.owner := owner_of_stepRunner stepped
  have kept : ¬next.owner.Released := by
    rw [owner]
    intro released
    rw [stepRunner_of_ended (outlives.released released)] at stepped
    cases stepped
  refine ⟨serves, fun released => absurd released kept, ?_⟩
  intro fault stopped
  have judged := serves.judged
  rw [stopped] at judged
  exact judged.resolve_right fun lost => kept lost.1

theorem destroy (outlives : Outlives session) (ran : session.step .destroy = some last)
    (slept : session.owner = .sleeping → 10 ≤ session.waited ∨ session.runner.Ended) :
    Outlives last := by
  have serves := outlives.serves.step ran trivial
  rcases going_of_step ran with ⟨going, owned⟩
  have asleep : session.owner = .sleeping → session.runner.Ended := by
    intro place
    by_contra still
    have more : 0 < session.runner.remaining session.threads.consumer :=
      Runner.remaining_pos still
    have waited := outlives.serves.waited
    have enough := (slept place).resolve_right still
    omega
  have same : last.runner = session.runner ∧ (last.owner.Released → session.runner.Ended) := by
    have released := outlives.released
    rw [Session.stepRunning, Session.stepOwner] at owned
    split at owned
    case h_1 place =>
        cases owned
        exact ⟨rfl, fun released => released.elim⟩
    case h_2 place =>
        cases owned
        exact ⟨rfl, fun _ => asleep place⟩
    case h_3 place =>
        cases owned
        rw [place] at released
        exact ⟨rfl, fun _ => released trivial⟩
    case h_4 => cases owned
  refine ⟨serves, ?_, ?_⟩
  · rw [same.1]
    exact same.2
  · intro fault stopped
    exact absurd (same.1.symm.trans stopped) (going fault)

theorem step (outlives : Outlives session) (sleeps : Sleeps session action)
    (ran : session.step action = some last) : Outlives last := by
  have serves := outlives.serves.step ran sleeps.1
  rcases going_of_step ran with ⟨going, running⟩
  cases action with
  | engine => exact outlives.engine ran
  | destroy => exact outlives.destroy ran (sleeps.2 rfl)
  | write request =>
      rcases Option.map_eq_some_iff.mp running with ⟨following, stepped, rfl⟩
      exact ⟨serves, outlives.released, outlives.stopped⟩
  | writer =>
      rcases Option.map_eq_some_iff.mp running with ⟨following, stepped, rfl⟩
      exact ⟨serves, outlives.released, outlives.stopped⟩
  | stop =>
      rw [Session.stepRunning] at running
      split at running
      case isTrue =>
          cases running
          exact ⟨serves, outlives.released, outlives.stopped⟩
      case isFalse => cases running

end Outlives

/-- If the sleep is long enough, the thread has left its loop before the destructor touches a
member, and only an invalid request ends the process. -/
theorem outlived_of_run [NeZero numElem]
    (run : Run (fun session action last => Sleeps session action ∧ session.step action = some last)
      (Session.new numElem) actions session) :
    (session.owner.Released → session.runner.Ended) ∧
      ∀ fault, session.runner = .stopped fault → StopsAt fault session.processed := by
  have outlives : Outlives session := by
    refine run.invariant Outlives ⟨serves_new, fun released => released.elim, ?_⟩
      fun outlives ⟨sleeps, ran⟩ => outlives.step sleeps ran
    intro fault stopped
    cases stopped
  exact ⟨outlives.released, outlives.stopped⟩

theorem outlived_of_run_sample : ∃ session : Session 2, session.processed = [newRequest] ∧
    session.owner = .gone ∧ session.runner.Ended := by
  have executed : (execute (permitted Sleeps Session.step) (Session.new 2)
      (destroyedWhileRunning ++ [.engine, .engine, .engine, .engine, .engine, .destroy,
        .destroy])).any (fun (session : Session 2) =>
        session.processed = [newRequest] ∧ session.owner = .gone) = true := by
    decide +kernel
  rcases (Option.any_eq_true _ _).mp executed with ⟨session, reached, facts⟩
  rcases of_decide_eq_true facts with ⟨processed, gone⟩
  have run : Run (fun session action last =>
      Sleeps session action ∧ session.step action = some last) (Session.new 2) _ session :=
    Run.of_permitted reached
  exact ⟨session, processed, gone, (outlived_of_run run).1 (by rw [gone]; trivial)⟩

/-- If the sleep is too short, the thread loads `incoming_request_` after it was set to null. -/
theorem stopped_of_short_sleep : ∃ session : Session 2,
    Run Step (Session.new 2) (destroyedWhileRunning ++ [.destroy, .engine]) session ∧
      session.runner = .stopped .nullPointer ∧ ¬StopsAt .nullPointer session.processed := by
  have executed : (execute (permitted KeepsRoom Session.step) (Session.new 2)
      (destroyedWhileRunning ++ [.destroy, .engine])).any (fun (session : Session 2) =>
        session.processed = [newRequest] ∧ session.runner = .stopped .nullPointer) = true := by
    decide +kernel
  rcases (Option.any_eq_true _ _).mp executed with ⟨session, reached, facts⟩
  rcases of_decide_eq_true facts with ⟨processed, stopped⟩
  refine ⟨session, Run.of_permitted reached, stopped, ?_⟩
  rintro ⟨front, request, split, faults, -⟩
  rw [processed] at split
  have isNew : newRequest = request := by
    rcases front with _ | ⟨first, rest⟩
    · exact (List.cons.inj split).1
    · simp at split
  have dispatchable : newRequest.Dispatchable := ⟨Or.inl rfl, by decide⟩
  rw [← isNew, verdict_eq_none_iff.mpr dispatchable] at faults
  cases faults

end QuantEngine.MatchingEngine
