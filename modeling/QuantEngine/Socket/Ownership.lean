import QuantEngine.Library.Run
import QuantEngine.Socket.Resources

/-!
# Who holds the descriptors

Sockets that connect, are closed and take over accepted connections, in any
order. No two sockets ever hold one descriptor, and none holds one that is
closed, although nothing but the kernel keeps the descriptors apart.

What `createSocket` leaks is leaked for good: afterwards no socket holds it, so
no socket closes it, and the kernel does not give it out again.
-/

namespace QuantEngine

open Exec Runs SocketUtils

universe u

namespace SocketUtils

variable {args : SocketArgs} {ip : String} {calls : AddressCalls} {addresses : List AddressCalls}
  {resources last : Resources} {fd fd' : Int32} {network : Network}

/-- The kernel gives out only descriptors that are not open. -/
def Unused (answers openDescriptors : List Int32) : Prop :=
  (∀ descriptor ∈ answers, descriptor ∉ openDescriptors) ∧
    answers.Pairwise fun first second => first ≠ -1 → first ≠ second

/-- The condition under which `createSocket` leaks nothing. -/
def Clean (network : Network) (args : SocketArgs) : Prop :=
  ∀ first others, resolve network args = .ok (first :: others) →
    others = [] ∧ Succeeds args (addressOf network args) first

theorem Unused.tail {first : Int32} {others openDescriptors : List Int32}
    (unused : Unused (first :: others) openDescriptors) (opened : first ≠ -1) :
    Unused others (first :: openDescriptors) := by
  rcases unused with ⟨fresh, apart⟩
  rcases List.pairwise_cons.mp apart with ⟨differs, apart⟩
  refine ⟨fun descriptor member => ?_, apart⟩
  rw [List.mem_cons, not_or]
  exact ⟨(differs descriptor member opened).symm, fresh descriptor (List.mem_cons_of_mem _ member)⟩

theorem Unused.single {descriptor : Int32} {openDescriptors : List Int32}
    (fresh : descriptor ∉ openDescriptors) : Unused [descriptor] openDescriptors :=
  ⟨by simpa using fresh, List.pairwise_singleton _ _⟩

theorem keeps_configure : Keeps (fun before after : Resources => after = before)
    (configure args ip calls) := by
  have trans : ∀ {first second third : Resources}, second = first → third = second →
      third = first := fun front back => back.trans front
  have keepsFailIf : ∀ {failed message},
      Keeps (fun before after : Resources => after = before) (failIf failed message) := by
    intro failed message resources
    cases failed <;> rfl
  unfold configure
  iterate 8 refine Keeps.bind trans keepsFailIf fun _ => ?_
  exact keepsFailIf

/-- What a walk over the addresses opens. -/
structure Walks (resources : Resources) (fd : Int32) (addresses : List AddressCalls)
    (opened : List Int32) (result : EStateM.Result String Resources Int32) : Prop where
  openDescriptors : (finalState result).openDescriptors = opened ++ resources.openDescriptors
  nodup : opened.Nodup
  answered : ∀ descriptor ∈ opened, descriptor ≠ -1 ∧ descriptor ∈ addresses.map (·.socket)
  returned : ∀ fd' last, result = .ok fd' last →
    opened.length = addresses.length ∧ (addresses = [] ∧ fd' = fd ∨ fd' ∈ opened)

/-- An address whose descriptor cannot be configured, or whose successors go on. -/
theorem Walks.cons {opened : List Int32} {result : EStateM.Result String Resources Int32}
    (isOpen : calls.socket ≠ -1)
    (unused : Unused ((calls :: addresses).map (·.socket)) resources.openDescriptors)
    (walks : Walks { resources with
      openDescriptors := calls.socket :: resources.openDescriptors } calls.socket addresses opened
        result) :
    Walks resources fd (calls :: addresses) (opened ++ [calls.socket]) result where
  openDescriptors := by
    rw [walks.openDescriptors, List.append_assoc]
    rfl
  nodup := by
    refine List.nodup_append.mpr ⟨walks.nodup, by simp, ?_⟩
    rintro descriptor member other single rfl
    rw [List.mem_singleton] at single
    have differs := (List.pairwise_cons.mp unused.2).1 descriptor (walks.answered _ member).2
    exact differs isOpen single.symm
  answered descriptor member := by
    rcases List.mem_append.mp member with later | now
    · exact ⟨(walks.answered descriptor later).1,
        List.mem_cons_of_mem _ (walks.answered descriptor later).2⟩
    · rw [List.mem_singleton.mp now]
      exact ⟨isOpen, List.mem_cons_self⟩
  returned fd' last returns := by
    rcases walks.returned fd' last returns with ⟨length, none | member⟩
    · rw [List.length_append, length]
      exact ⟨rfl, Or.inr (by simp [none.2])⟩
    · rw [List.length_append, length]
      exact ⟨rfl, Or.inr (List.mem_append_left _ member)⟩

/-- A walk that gives up returns nothing. -/
theorem Walks.of_error {message : String}
    (final : last.openDescriptors = resources.openDescriptors) :
    Walks resources fd addresses [] (.error message last) where
  openDescriptors := final
  nodup := List.nodup_nil
  answered descriptor member := absurd member List.not_mem_nil
  returned fd' last returns := by cases returns

theorem createSocketLoop_walks
    (unused : Unused (addresses.map (·.socket)) resources.openDescriptors) :
    ∃ opened, Walks resources fd addresses opened
      (createSocketLoop args ip fd addresses resources) := by
  induction addresses generalizing fd resources with
  | nil =>
      refine ⟨[], rfl, List.nodup_nil, by simp, ?_⟩
      rintro fd' last ⟨⟩
      exact ⟨rfl, Or.inl ⟨rfl, rfl⟩⟩
  | cons calls addresses ih =>
      by_cases isOpen : calls.socket = -1
      · refine ⟨[], ?_⟩
        have stopped : createSocketLoop args ip fd (calls :: addresses) resources =
            .error "socket() failed. errno:%\n" resources := by
          rw [createSocketLoop, isOpen]
          rfl
        rw [stopped]
        exact Walks.of_error rfl
      · have opens : createSocketLoop args ip fd (calls :: addresses) resources =
            (configure args ip calls >>= fun _ => createSocketLoop args ip calls.socket addresses)
              { resources with openDescriptors := calls.socket :: resources.openDescriptors } := by
          rw [createSocketLoop, failIf, if_neg (by simpa using isOpen), run_pure_bind]
          rfl
        rw [opens]
        have kept : finalState (configure args ip calls
            { resources with openDescriptors := calls.socket :: resources.openDescriptors }) =
              { resources with openDescriptors := calls.socket :: resources.openDescriptors } :=
          keeps_configure _
        cases configured : configure args ip calls
            { resources with openDescriptors := calls.socket :: resources.openDescriptors } with
        | error message middle =>
            rw [configured, finalState_error] at kept
            rw [run_bind_of_error configured, kept]
            exact ⟨_, Walks.cons isOpen unused (Walks.of_error rfl)⟩
        | ok done middle =>
            rw [configured, finalState_ok] at kept
            rw [run_bind_of_ok configured, kept]
            have later : ∃ opened, Walks
                { resources with openDescriptors := calls.socket :: resources.openDescriptors }
                calls.socket addresses opened _ := ih (unused.tail isOpen)
            rcases later with ⟨opened, walks⟩
            exact ⟨_, walks.cons isOpen unused⟩

/-- What a call of `createSocket` opens, what it returns, and that it leaks exactly when it is not
clean. -/
structure Creates (network : Network) (args : SocketArgs) (resources : Resources)
    (opened : List Int32) (outcome : Int32 × Resources) : Prop where
  openDescriptors : outcome.2.openDescriptors = opened ++ resources.openDescriptors
  nodup : opened.Nodup
  fresh : ∀ descriptor ∈ opened, descriptor ≠ -1 ∧ descriptor ∉ resources.openDescriptors
  returned : outcome.1 = -1 ∨ outcome.1 ∈ opened
  addressLists : resources.addressLists ≤ outcome.2.addressLists
  clean_iff : Clean network args ↔ outcome.2.addressLists = resources.addressLists ∧
    ∀ descriptor ∈ opened, descriptor = outcome.1

/-- Without an address nothing is opened. -/
theorem creates_of_unresolved
    (unresolved : ∀ first others, resolve network args ≠ .ok (first :: others)) :
    Creates network args resources [] (createSocket network args resources) := by
  rw [createSocket_of_unresolved unresolved]
  have clean : Clean network args := fun first others found =>
    absurd found (unresolved first others)
  exact ⟨rfl, List.nodup_nil, by simp, Or.inl rfl, Nat.le_refl _,
    fun _ => ⟨rfl, by simp⟩, fun _ => clean⟩

section Resolved

variable {first : AddressCalls} {others : List AddressCalls} {opened : List Int32}
  {result : EStateM.Result String Resources Int32}

theorem clean_iff_of_resolved (resolved : resolve network args = .ok (first :: others)) :
    Clean network args ↔ others = [] ∧ Succeeds args (addressOf network args) first := by
  simp [Clean, resolved]

theorem Walks.fresh (walks : Walks resources fd addresses opened result)
    (unused : Unused (addresses.map (·.socket)) resources.openDescriptors) :
    ∀ descriptor ∈ opened, descriptor ≠ -1 ∧ descriptor ∉ resources.openDescriptors :=
  fun descriptor member => ⟨(walks.answered descriptor member).1,
    unused.1 descriptor (walks.answered descriptor member).2⟩

/-- A walk that gives up leaves the list of the addresses behind. -/
theorem creates_of_failure {message : String}
    (resolved : resolve network args = .ok (first :: others))
    (unused : Unused ((first :: others).map (·.socket)) resources.openDescriptors)
    (walked : createSocketLoop args (addressOf network args) (-1) (first :: others)
      { resources with addressLists := resources.addressLists + 1 } = .error message last)
    (walks : Walks { resources with addressLists := resources.addressLists + 1 } (-1)
      (first :: others) opened (.error message last)) :
    Creates network args resources opened (createSocket network args resources) := by
  rw [createSocket_of_failure resolved walked]
  have more : resources.addressLists + 1 = last.addressLists :=
    (addressLists_of_loop_error walked).symm
  refine ⟨walks.openDescriptors, walks.nodup, walks.fresh unused, Or.inl rfl,
    by dsimp only; omega, (clean_iff_of_resolved resolved).trans ⟨?_, ?_⟩⟩
  · rintro ⟨rfl, succeeds⟩
    rw [createSocketLoop_cons_eq_ok_iff.mpr ⟨succeeds, rfl⟩] at walked
    cases walked
  · rintro ⟨lists, -⟩
    dsimp only at lists
    omega

/-- A walk that goes through leaves a descriptor behind for every address but the last. -/
theorem creates_of_walk (resolved : resolve network args = .ok (first :: others))
    (unused : Unused ((first :: others).map (·.socket)) resources.openDescriptors)
    (walked : createSocketLoop args (addressOf network args) (-1) (first :: others)
      { resources with addressLists := resources.addressLists + 1 } = .ok fd last)
    (walks : Walks { resources with addressLists := resources.addressLists + 1 } (-1)
      (first :: others) opened (.ok fd last)) :
    Creates network args resources opened (createSocket network args resources) := by
  rw [createSocket_of_walk resolved walked]
  have continues := createSocketLoop_cons_eq_ok_iff.mp walked
  rcases walks.returned fd last rfl with ⟨length, ⟨none, -⟩ | member⟩
  · cases none
  have lists : last.addressLists = resources.addressLists + 1 := by
    have kept : (finalState (createSocketLoop args (addressOf network args) (-1)
      (first :: others) _)).addressLists = _ := keeps_addressLists_loop
        { resources with addressLists := resources.addressLists + 1 }
    rwa [walked] at kept
  refine ⟨walks.openDescriptors, walks.nodup, walks.fresh unused, Or.inr member,
    by dsimp only; omega, (clean_iff_of_resolved resolved).trans ⟨?_, ?_⟩⟩
  · rintro ⟨rfl, -⟩
    refine ⟨by dsimp only; omega, fun descriptor isOpened => ?_⟩
    rcases List.length_eq_one_iff.mp length with ⟨only, rfl⟩
    rw [List.mem_singleton] at member isOpened
    rw [member, isOpened]
  · rintro ⟨-, all⟩
    refine ⟨?_, continues.1⟩
    -- No descriptor is opened twice.
    have short : opened.length ≤ 1 := by
      have nodup := walks.nodup
      rw [List.eq_replicate_of_mem all] at nodup
      exact List.nodup_replicate.mp nodup
    rw [length, List.length_cons] at short
    exact List.eq_nil_of_length_eq_zero (by omega)

end Resolved

theorem createSocket_creates
    (unused : ∀ addresses, resolve network args = .ok addresses →
      Unused (addresses.map (·.socket)) resources.openDescriptors) :
    ∃ opened, Creates network args resources opened (createSocket network args resources) := by
  by_cases unresolved : ∀ first others, resolve network args ≠ .ok (first :: others)
  · exact ⟨[], creates_of_unresolved unresolved⟩
  have found : ∃ first others, resolve network args = .ok (first :: others) := by
    simpa using unresolved
  rcases found with ⟨first, others, resolved⟩
  have walks : ∃ opened, Walks { resources with addressLists := resources.addressLists + 1 } (-1)
      (first :: others) opened (createSocketLoop args (addressOf network args) (-1)
        (first :: others) { resources with addressLists := resources.addressLists + 1 }) :=
    createSocketLoop_walks (unused _ resolved)
  rcases walks with ⟨opened, walks⟩
  refine ⟨opened, ?_⟩
  cases walked : createSocketLoop args (addressOf network args) (-1) (first :: others)
      { resources with addressLists := resources.addressLists + 1 } with
  | error message last =>
      rw [walked] at walks
      exact creates_of_failure resolved (unused _ resolved) walked walks
  | ok fd last =>
      rw [walked] at walks
      exact creates_of_walk resolved (unused _ resolved) walked walks

end SocketUtils

namespace TCPSocket

/-- `setFd` for a socket with this `fd_`; the new `fd_` is returned. -/
def setFd (newFd fd : Int32) (resources : Resources) : Int32 × Resources :=
  (newFd, close fd resources)

/-- The arguments with which `connect` calls `createSocket`. -/
def connectArgs (ip iface : String) (port : Int32) (isListening : Bool) : SocketArgs where
  ip := ip
  iface := iface
  port := port
  isUdp := false
  isBlocking := false
  isListening := isListening
  ttl := 0
  needsSoTimestamp := true

/-- The sockets of a process, each with its `fd_`. -/
structure Sockets (Owner : Type u) where
  fd : Owner → Int32
  resources : Resources

/-- A call on one of the sockets. -/
inductive Call (Owner : Type u) where
  | connect (owner : Owner) (network : Network) (ip iface : String) (port : Int32)
      (isListening : Bool)
  /-- `close`, which is all that the destructor does with the descriptor. -/
  | close (owner : Owner)
  /-- `accept` opens a descriptor, and `setFd` gives it to the socket. -/
  | accept (owner : Owner) (descriptor : Int32)

/-- A `connect` that leaks nothing, or another call. -/
def Call.Clean {Owner : Type u} : Call Owner → Prop
  | .connect _ network ip iface port isListening =>
      SocketUtils.Clean network (connectArgs ip iface port isListening)
  | _ => True

namespace Sockets

variable {Owner : Type u} {sockets last : Sockets Owner} {owner : Owner} {call : Call Owner}
  {calls : List (Call Owner)} {outcome : Int32 × Resources} {opened : List Int32}

/-- The socket has a new descriptor. -/
def update [DecidableEq Owner] (sockets : Sockets Owner) (owner : Owner)
    (outcome : Int32 × Resources) : Sockets Owner where
  fd := Function.update sockets.fd owner outcome.1
  resources := outcome.2

def perform [DecidableEq Owner] (sockets : Sockets Owner) : Call Owner → Sockets Owner
  | .connect owner network ip iface port isListening => sockets.update owner
      (connect network ip iface port isListening (sockets.fd owner) sockets.resources)
  | .close owner => sockets.update owner (-1, close (sockets.fd owner) sockets.resources)
  | .accept owner descriptor => sockets.update owner
      (setFd descriptor (sockets.fd owner) { sockets.resources with
        openDescriptors := descriptor :: sockets.resources.openDescriptors })

/-- The kernel gives out only descriptors that are not open. -/
def Answers (sockets : Sockets Owner) : Call Owner → Prop
  | .connect owner network ip iface port isListening =>
      ∀ addresses, resolve network (connectArgs ip iface port isListening) = .ok addresses →
        Unused (addresses.map (·.socket))
          (close (sockets.fd owner) sockets.resources).openDescriptors
  | .close _ => True
  | .accept _ descriptor =>
      descriptor ≠ -1 ∧ descriptor ∉ sockets.resources.openDescriptors

def Step [DecidableEq Owner] (sockets : Sockets Owner) (call : Call Owner)
    (last : Sockets Owner) : Prop :=
  sockets.Answers call ∧ sockets.perform call = last

/-- No socket has a descriptor yet. -/
def new : Sockets Owner where
  fd _ := -1
  resources := {}

/-- Every open descriptor is held by a socket, and no address list is left. -/
def LeakFree (sockets : Sockets Owner) : Prop :=
  sockets.resources.addressLists = 0 ∧
    ∀ descriptor ∈ sockets.resources.openDescriptors, ∃ owner, sockets.fd owner = descriptor

/-- The descriptor is open and no socket holds it. -/
def Lost (sockets : Sockets Owner) (descriptor : Int32) : Prop :=
  descriptor ∈ sockets.resources.openDescriptors ∧ ∀ owner, sockets.fd owner ≠ descriptor

/-- What is lost before is lost after. -/
structure Loses (sockets last : Sockets Owner) : Prop where
  descriptors : ∀ descriptor, Lost sockets descriptor → Lost last descriptor
  addressLists : sockets.resources.addressLists ≤ last.resources.addressLists

/-- The descriptors of the sockets are open, and no two sockets hold the same. -/
structure Owned (sockets : Sockets Owner) : Prop where
  nodup : sockets.resources.openDescriptors.Nodup
  valid : ∀ descriptor ∈ sockets.resources.openDescriptors, descriptor ≠ -1
  held : ∀ owner, sockets.fd owner ≠ -1 → sockets.fd owner ∈ sockets.resources.openDescriptors
  apart : ∀ owner other, sockets.fd owner = sockets.fd other → sockets.fd owner ≠ -1 →
    owner = other

theorem owned_new : Owned (new : Sockets Owner) where
  nodup := List.nodup_nil
  valid _ member := absurd member List.not_mem_nil
  held _ isHeld := absurd rfl isHeld
  apart _ _ _ isHeld := absurd rfl isHeld

/-- What the call opens, beyond what is left when the descriptor of the socket is closed. -/
structure Opens (sockets : Sockets Owner) (owner : Owner) (opened : List Int32)
    (outcome : Int32 × Resources) : Prop where
  openDescriptors : outcome.2.openDescriptors =
    opened ++ (close (sockets.fd owner) sockets.resources).openDescriptors
  nodup : opened.Nodup
  fresh : ∀ descriptor ∈ opened, descriptor ≠ -1 ∧
    descriptor ∉ (close (sockets.fd owner) sockets.resources).openDescriptors
  returned : outcome.1 = -1 ∨ outcome.1 ∈ opened
  addressLists : sockets.resources.addressLists ≤ outcome.2.addressLists

@[simp]
theorem addressLists_close (fd : Int32) (resources : Resources) :
    (close fd resources).addressLists = resources.addressLists := by
  unfold close
  split <;> rfl

namespace Owned

theorem mem_close (owned : Owned sockets) (owner : Owner) (descriptor : Int32) :
    descriptor ∈ (close (sockets.fd owner) sockets.resources).openDescriptors ↔
      descriptor ∈ sockets.resources.openDescriptors ∧ descriptor ≠ sockets.fd owner := by
  unfold TCPSocket.close
  split
  case isTrue => rw [owned.nodup.mem_erase_iff, and_comm]
  case isFalse none =>
      rw [not_ne_iff] at none
      rw [none]
      exact ⟨fun member => ⟨member, owned.valid descriptor member⟩, And.left⟩

theorem nodup_close (owned : Owned sockets) (owner : Owner) :
    (close (sockets.fd owner) sockets.resources).openDescriptors.Nodup := by
  unfold TCPSocket.close
  split
  · exact owned.nodup.erase _
  · exact owned.nodup

/-- Closing one socket leaves the descriptor of another open. -/
theorem mem_close_of_ne {other : Owner} (owned : Owned sockets) (differs : other ≠ owner)
    (isHeld : sockets.fd other ≠ -1) :
    sockets.fd other ∈ (close (sockets.fd owner) sockets.resources).openDescriptors :=
  (owned.mem_close owner _).mpr
    ⟨owned.held other isHeld, fun shared => differs (owned.apart other owner shared isHeld)⟩

/-- What the call returns is held by no other socket. -/
theorem ne_of_opens {other : Owner} (owned : Owned sockets)
    (opens : Opens sockets owner opened outcome) (differs : other ≠ owner)
    (returned : outcome.1 ≠ -1) : sockets.fd other ≠ outcome.1 := by
  intro shared
  have isOpened := opens.returned.resolve_left returned
  refine (opens.fresh _ isOpened).2 ?_
  rw [← shared] at returned ⊢
  exact owned.mem_close_of_ne differs returned

variable [DecidableEq Owner]

theorem update (owned : Owned sockets) (opens : Opens sockets owner opened outcome) :
    Owned (sockets.update owner outcome) where
  nodup := by
    change outcome.2.openDescriptors.Nodup
    rw [opens.openDescriptors]
    refine List.nodup_append.mpr ⟨opens.nodup, owned.nodup_close owner, ?_⟩
    rintro descriptor isOpened other isOpen rfl
    exact (opens.fresh descriptor isOpened).2 isOpen
  valid descriptor member := by
    change descriptor ∈ outcome.2.openDescriptors at member
    rw [opens.openDescriptors] at member
    rcases List.mem_append.mp member with isOpened | isOpen
    · exact (opens.fresh descriptor isOpened).1
    · exact owned.valid descriptor ((owned.mem_close owner descriptor).mp isOpen).1
  held other isHeld := by
    change Function.update sockets.fd owner outcome.1 other ≠ -1 at isHeld
    change Function.update sockets.fd owner outcome.1 other ∈ outcome.2.openDescriptors
    rw [opens.openDescriptors]
    by_cases same : other = owner
    · subst same
      rw [Function.update_self] at isHeld ⊢
      exact List.mem_append_left _ (opens.returned.resolve_left isHeld)
    · rw [Function.update_of_ne same] at isHeld ⊢
      exact List.mem_append_right _ (owned.mem_close_of_ne same isHeld)
  apart first second shared isHeld := by
    change Function.update sockets.fd owner outcome.1 first =
      Function.update sockets.fd owner outcome.1 second at shared
    change Function.update sockets.fd owner outcome.1 first ≠ -1 at isHeld
    by_cases isFirst : first = owner
    · by_cases isSecond : second = owner
      · rw [isFirst, isSecond]
      · rw [isFirst, Function.update_self] at shared isHeld
        rw [Function.update_of_ne isSecond] at shared
        exact absurd shared.symm (owned.ne_of_opens opens isSecond isHeld)
    · rw [Function.update_of_ne isFirst] at shared isHeld
      by_cases isSecond : second = owner
      · rw [isSecond, Function.update_self] at shared
        exact absurd shared (owned.ne_of_opens opens isFirst (shared ▸ isHeld))
      · rw [Function.update_of_ne isSecond] at shared
        exact owned.apart first second shared isHeld

/-- Behind a call the one socket holds what was returned, and each other what it held before. -/
theorem held_update {descriptor : Int32} :
    (∃ other, (sockets.update owner outcome).fd other = descriptor) ↔
      descriptor = outcome.1 ∨ ∃ other, other ≠ owner ∧ sockets.fd other = descriptor := by
  constructor
  · rintro ⟨other, isHeld⟩
    change Function.update sockets.fd owner outcome.1 other = descriptor at isHeld
    by_cases same : other = owner
    · rw [same, Function.update_self] at isHeld
      exact Or.inl isHeld.symm
    · rw [Function.update_of_ne same] at isHeld
      exact Or.inr ⟨other, same, isHeld⟩
  · rintro (rfl | ⟨other, differs, isHeld⟩)
    · exact ⟨owner, Function.update_self ..⟩
    · exact ⟨other, (Function.update_of_ne differs ..).trans isHeld⟩

/-- Nothing is leaked by a call exactly when it leaves no address list and the one descriptor it
opens is the one it returns. What is lost once is never found again. -/
theorem leakFree_update_iff (owned : Owned sockets)
    (opens : Opens sockets owner opened outcome) :
    LeakFree (sockets.update owner outcome) ↔
      LeakFree sockets ∧ outcome.2.addressLists = sockets.resources.addressLists ∧
        ∀ descriptor ∈ opened, descriptor = outcome.1 := by
  have grown := opens.addressLists
  constructor
  · rintro ⟨lists, all⟩
    change outcome.2.addressLists = 0 at lists
    change ∀ descriptor ∈ outcome.2.openDescriptors, _ at all
    simp only [opens.openDescriptors, List.mem_append, held_update] at all
    refine ⟨⟨by omega, fun descriptor isOpen => ?_⟩, by omega, fun descriptor isOpened => ?_⟩
    · -- What was open is still held by the same socket, unless it was closed now.
      by_cases closed : descriptor = sockets.fd owner
      · exact ⟨owner, closed.symm⟩
      have remains := (owned.mem_close owner descriptor).mpr ⟨isOpen, closed⟩
      rcases all descriptor (Or.inr remains) with rfl | ⟨other, -, isHeld⟩
      · rcases opens.returned with none | isOpened
        · exact absurd none (owned.valid _ isOpen)
        · exact absurd remains (opens.fresh _ isOpened).2
      · exact ⟨other, isHeld⟩
    · -- What was opened was held by nobody before.
      rcases all descriptor (Or.inl isOpened) with returned | ⟨other, differs, rfl⟩
      · exact returned
      · rcases opens.fresh _ isOpened with ⟨valid, closed⟩
        exact absurd (owned.mem_close_of_ne differs valid) closed
  · rintro ⟨⟨lists, all⟩, kept, only⟩
    refine ⟨kept.trans lists, fun descriptor isOpen => held_update.mpr ?_⟩
    change descriptor ∈ outcome.2.openDescriptors at isOpen
    rw [opens.openDescriptors] at isOpen
    rcases List.mem_append.mp isOpen with isOpened | remains
    · exact Or.inl (only descriptor isOpened)
    · rcases (owned.mem_close owner descriptor).mp remains with ⟨wasOpen, notClosed⟩
      rcases all descriptor wasOpen with ⟨other, rfl⟩
      exact Or.inr ⟨other, fun same => notClosed (congrArg sockets.fd same), rfl⟩

/-- A call neither closes nor hands out what no socket holds. -/
theorem loses_update (owned : Owned sockets) (opens : Opens sockets owner opened outcome) :
    Loses sockets (sockets.update owner outcome) where
  descriptors descriptor lost := by
    rcases lost with ⟨isOpen, unheld⟩
    have remains := (owned.mem_close owner descriptor).mpr ⟨isOpen, (unheld owner).symm⟩
    refine ⟨?_, fun other isHeld => ?_⟩
    · change descriptor ∈ outcome.2.openDescriptors
      rw [opens.openDescriptors]
      exact List.mem_append_right _ remains
    · rcases held_update.mp ⟨other, isHeld⟩ with rfl | ⟨other, -, isHeld⟩
      · rcases opens.returned with none | isOpened
        · exact owned.valid _ isOpen none
        · exact (opens.fresh _ isOpened).2 remains
      · exact unheld other isHeld
  addressLists := opens.addressLists

end Owned

/-- An accepted connection is open beside what is left of the socket's own descriptor. -/
theorem opens_accept {descriptor : Int32} (owned : Owned sockets)
    (answers : sockets.Answers (.accept owner descriptor)) :
    Opens sockets owner [descriptor] (setFd descriptor (sockets.fd owner) { sockets.resources with
      openDescriptors := descriptor :: sockets.resources.openDescriptors }) := by
  rcases answers with ⟨valid, unused⟩
  constructor
  case openDescriptors =>
    change (close _ _).openDescriptors = _
    unfold TCPSocket.close
    split
    case isFalse => rfl
    case isTrue isHeld =>
        have differs : descriptor ≠ sockets.fd owner := by
          rintro rfl
          exact unused (owned.held owner valid)
        exact List.erase_cons_tail (by simpa using differs)
  case nodup => simp
  case fresh =>
    rintro opened isOpened
    rw [List.mem_singleton.mp isOpened]
    exact ⟨valid, fun isOpen => unused ((owned.mem_close owner descriptor).mp isOpen).1⟩
  case returned => exact Or.inr List.mem_cons_self
  case addressLists =>
    have kept : (close (sockets.fd owner) { sockets.resources with
        openDescriptors := descriptor :: sockets.resources.openDescriptors }).addressLists =
          sockets.resources.addressLists := addressLists_close _ _
    exact Nat.le_of_eq kept.symm

theorem opens_close :
    Opens sockets owner [] (-1, close (sockets.fd owner) sockets.resources) where
  openDescriptors := rfl
  nodup := List.nodup_nil
  fresh _ member := absurd member List.not_mem_nil
  returned := Or.inl rfl
  addressLists := Nat.le_of_eq (addressLists_close _ _).symm

variable [DecidableEq Owner]

/-- What a call opens, and that it leaks exactly when it is not clean. -/
theorem perform_opens (owned : Owned sockets) (answers : sockets.Answers call) :
    ∃ owner opened outcome, sockets.perform call = sockets.update owner outcome ∧
      Opens sockets owner opened outcome ∧
      (call.Clean ↔ outcome.2.addressLists = sockets.resources.addressLists ∧
        ∀ descriptor ∈ opened, descriptor = outcome.1) := by
  cases call with
  | connect owner network ip iface port isListening =>
      rcases createSocket_creates answers with ⟨opened, creates⟩
      have grown := creates.addressLists
      have clean_iff := creates.clean_iff
      rw [addressLists_close] at grown clean_iff
      exact ⟨owner, opened, _, rfl, ⟨creates.openDescriptors, creates.nodup, creates.fresh,
        creates.returned, grown⟩, clean_iff⟩
  | close owner =>
      refine ⟨owner, [], _, rfl, opens_close, ?_⟩
      exact iff_of_true trivial ⟨addressLists_close _ _, by simp⟩
  | accept owner descriptor =>
      refine ⟨owner, [descriptor], _, rfl, opens_accept owned answers, ?_⟩
      exact iff_of_true trivial ⟨addressLists_close _ _, fun _ => List.mem_singleton.mp⟩

theorem Owned.step (owned : Owned sockets) (step : sockets.Step call last) :
    Owned last ∧ Loses sockets last ∧ (LeakFree last ↔ LeakFree sockets ∧ call.Clean) := by
  rcases step with ⟨answers, rfl⟩
  rcases perform_opens owned answers with ⟨owner, opened, outcome, performed, opens, clean_iff⟩
  rw [performed, clean_iff]
  exact ⟨owned.update opens, owned.loses_update opens, owned.leakFree_update_iff opens⟩

theorem Owned.loses_of_run (owned : Owned sockets) (run : Run Step sockets calls last) :
    Owned last ∧ Loses sockets last := by
  induction run with
  | nil => exact ⟨owned, fun _ => id, Nat.le_refl _⟩
  | snoc _ step ih =>
      rcases ih with ⟨owned, loses⟩
      rcases owned.step step with ⟨owned, losesMore, -⟩
      exact ⟨owned, fun descriptor lost => losesMore.descriptors descriptor
        (loses.descriptors descriptor lost), Nat.le_trans loses.addressLists losesMore.addressLists⟩

/-- In every run, the descriptors of the sockets are open and belong to one socket each; all that
is open belongs to a socket exactly when no call of the run has leaked. What has leaked then stays
so in every further run. -/
theorem ownership_of_run (run : Run Step (new : Sockets Owner) calls last) :
    Owned last ∧ (LeakFree last ↔ ∀ call ∈ calls, call.Clean) ∧
      ∀ more later, Run Step last more later → Loses last later := by
  induction run with
  | nil =>
      exact ⟨owned_new, iff_of_true ⟨rfl, by simp [new]⟩ (by simp),
        fun _ _ further => (owned_new.loses_of_run further).2⟩
  | snoc _ step ih =>
      rcases ih with ⟨owned, leakFree_iff, -⟩
      rcases owned.step step with ⟨owned, -, step_iff⟩
      refine ⟨owned, ?_, fun _ _ further => (owned.loses_of_run further).2⟩
      rw [step_iff, leakFree_iff]
      simp [or_imp, forall_and]

/-- A socket connects, a connection is accepted, and the first socket connects again, for which it
is given the descriptor it has just closed; the `bind` fails. -/
def sampleRun : List (Call Bool) :=
  [.connect true (sampleNetwork [sampleCalls 3]) "" "lo" 12345 true, .accept false 4,
    .connect true (sampleNetwork [{ sampleCalls 3 with bind := -1 }]) "" "lo" 12346 true]

/-- Both sockets are closed, and the descriptor of the last `connect` is lost. -/
theorem ownership_of_run_sample :
    Owned (sampleRun.foldl perform new) ∧
      (LeakFree (sampleRun.foldl perform new) ↔ ∀ call ∈ sampleRun, call.Clean) ∧
      Lost ([.close true, .close false].foldl perform (sampleRun.foldl perform new)) 3 := by
  have run : Run Step (new : Sockets Bool) sampleRun (sampleRun.foldl perform new) := by
    refine ((Run.nil.snoc ⟨?connected, rfl⟩).snoc ⟨?accepted, rfl⟩).snoc ⟨?refused, rfl⟩
    case accepted => exact ⟨by decide, by decide⟩
    all_goals
      rintro addresses ⟨⟩
      exact Unused.single (by decide)
  have further : Run Step (sampleRun.foldl perform new) [.close true, .close false] _ :=
    (Run.nil.snoc ⟨trivial, rfl⟩).snoc ⟨trivial, rfl⟩
  have lost : Lost (sampleRun.foldl perform new) 3 := ⟨by decide, by decide⟩
  rcases ownership_of_run run with ⟨owned, leakFree_iff, loses⟩
  exact ⟨owned, leakFree_iff, (loses _ _ further).descriptors 3 lost⟩

end Sockets

end TCPSocket

end QuantEngine
