import Mathlib.Tactic.MkIffOfInductiveProp
import QuantEngine.SocketUtils

/-!
# What `createSocket` holds when it returns

`createSocket` opens a descriptor for every address it walks over and closes
none of them. The failure exits leave the loop with a bare `return -1`, past the
`freeaddrinfo` at the end of the function. So nothing is leaked only when there
is nothing to walk over, or one address for which every call succeeds.
-/

namespace QuantEngine.SocketUtils

open Exec

variable {args : SocketArgs} {ip message : String} {calls : AddressCalls}
  {addresses : List AddressCalls} {resources last : Resources} {fd fd' : Int32} {done : PUnit}

/-- The outcome of a call leaves the address lists as they were, and adds to the open descriptors
the one that is returned and no other. -/
def LeaksNothing (resources : Resources) (outcome : Int32 × Resources) : Prop :=
  outcome.2.addressLists = resources.addressLists ∧
    outcome.2.openDescriptors =
      if outcome.1 = -1 then resources.openDescriptors
      else outcome.1 :: resources.openDescriptors

/-- Every call made on the descriptor of the address succeeds; a `connect` that would block counts
as one. -/
@[mk_iff]
structure Configures (args : SocketArgs) (ip : String) (calls : AddressCalls) : Prop where
  nonBlocking : args.isBlocking = false → setNonBlocking calls.getFlags calls.setFlags
  noDelay : args.isBlocking = false → args.isUdp = false → calls.noDelay ≠ -1
  connect : args.isListening = false → calls.connect = -1 → wouldBlock calls.errno
  reuseAddr : args.isListening → calls.reuseAddr ≠ -1
  bind : args.isListening → calls.bind ≠ -1
  listen : args.isUdp = false → args.isListening → calls.listen ≠ -1
  mcastTtl : args.isUdp → args.ttl ≠ 0 → isMulticast ip → calls.mcastTtl ≠ -1
  ttl : args.isUdp → args.ttl ≠ 0 → isMulticast ip = false → calls.ttl ≠ -1
  soTimestamp : args.needsSoTimestamp → calls.soTimestamp ≠ -1

/-- Every call made for the address succeeds. -/
def Succeeds (args : SocketArgs) (ip : String) (calls : AddressCalls) : Prop :=
  calls.socket ≠ -1 ∧ Configures args ip calls

theorem failIf_eq_ok_iff {failed : Bool} :
    failIf failed message resources = .ok done last ↔ failed = false ∧ resources = last := by
  cases failed <;> simp [failIf]

theorem failIf_bind_eq_ok_iff {α : Type} {failed : Bool} {next : PUnit → SetupM α} {value : α} :
    (failIf failed message >>= next) resources = .ok value last ↔
      failed = false ∧ next ⟨⟩ resources = .ok value last := by
  cases failed with
  | false => simp [failIf]
  | true => simp [failIf, run_bind_of_error (run_throw resources message)]

theorem configure_eq_ok_iff :
    configure args ip calls resources = .ok done last ↔
      Configures args ip calls ∧ resources = last := by
  simp only [configure, failIf_bind_eq_ok_iff, failIf_eq_ok_iff, configures_iff]
  simp [setNoDelay, setMcastTTL, setTTL, setSOTimestamp, and_assoc]

/-- The loop goes on from an address exactly when every call for it succeeds. -/
theorem createSocketLoop_cons_eq_ok_iff :
    createSocketLoop args ip fd (calls :: addresses) resources = .ok fd' last ↔
      Succeeds args ip calls ∧
        createSocketLoop args ip calls.socket addresses
          { resources with openDescriptors := calls.socket :: resources.openDescriptors } =
            .ok fd' last := by
  rw [createSocketLoop, failIf_bind_eq_ok_iff, decide_eq_false_iff_not, run_modify_bind,
    run_bind_eq_ok_iff]
  constructor
  · rintro ⟨opened, _, middle, configured, rest⟩
    rcases configure_eq_ok_iff.mp configured with ⟨configures, rfl⟩
    exact ⟨⟨opened, configures⟩, rest⟩
  · rintro ⟨⟨opened, configures⟩, rest⟩
    exact ⟨opened, ⟨⟩, _, configure_eq_ok_iff.mpr ⟨configures, rfl⟩, rest⟩

/-- A loop that goes through has opened a descriptor for every address. -/
theorem length_openDescriptors_of_loop
    (ran : createSocketLoop args ip fd addresses resources = .ok fd' last) :
    last.openDescriptors.length = resources.openDescriptors.length + addresses.length := by
  induction addresses generalizing fd resources with
  | nil =>
      cases ran
      rfl
  | cons calls addresses ih =>
      rw [ih (createSocketLoop_cons_eq_ok_iff.mp ran).2, List.length_cons, List.length_cons]
      omega

/-- The loop neither allocates nor frees an address list, also where it gives up. -/
theorem keeps_addressLists_loop :
    Keeps (fun before after : Resources => after.addressLists = before.addressLists)
      (createSocketLoop args ip fd addresses) := by
  have trans : ∀ {first second third : Resources}, second.addressLists = first.addressLists →
      third.addressLists = second.addressLists → third.addressLists = first.addressLists :=
    fun front back => back.trans front
  have keepsFailIf : ∀ {failed message}, Keeps
      (fun before after : Resources => after.addressLists = before.addressLists)
      (failIf failed message) := by
    intro failed message resources
    cases failed <;> rfl
  induction addresses generalizing fd with
  | nil => exact fun _ => rfl
  | cons calls addresses ih =>
      refine Keeps.bind trans keepsFailIf fun _ => ?_
      refine Keeps.bind trans (Keeps.modify fun _ => rfl) fun _ => ?_
      refine Keeps.bind trans ?_ fun _ => ih
      iterate 8 refine Keeps.bind trans keepsFailIf fun _ => ?_
      exact keepsFailIf

theorem addressLists_of_loop_error
    (failed : createSocketLoop args ip fd addresses resources = .error message last) :
    last.addressLists = resources.addressLists := by
  have kept : (finalState (createSocketLoop args ip fd addresses resources)).addressLists =
      resources.addressLists := keeps_addressLists_loop resources
  rwa [failed] at kept

section Resolved

variable {network : Network} {first : AddressCalls} {others : List AddressCalls}
  (resolved : resolve network args = .ok (first :: others))

include resolved

theorem run_createSocketBody :
    createSocketBody network args resources = (do
      let fd ← createSocketLoop args (addressOf network args) (-1) (first :: others)
      modify (freeList (first :: others))
      pure fd : SetupM Int32) { resources with addressLists := resources.addressLists + 1 } := by
  rw [createSocketBody, resolved]
  rfl

/-- A walk that goes through frees the list. -/
theorem createSocket_of_walk
    (walked : createSocketLoop args (addressOf network args) (-1) (first :: others)
      { resources with addressLists := resources.addressLists + 1 } = .ok fd last) :
    createSocket network args resources =
      (fd, { last with addressLists := last.addressLists - 1 }) := by
  rw [createSocket, run_createSocketBody resolved, run_bind_of_ok walked]
  rfl

/-- A walk that gives up returns at once. -/
theorem createSocket_of_failure
    (walked : createSocketLoop args (addressOf network args) (-1) (first :: others)
      { resources with addressLists := resources.addressLists + 1 } = .error message last) :
    createSocket network args resources = (-1, last) := by
  rw [createSocket, run_createSocketBody resolved, run_bind_of_error walked]

end Resolved

/-- Without an address there is nothing to walk over. -/
theorem createSocket_of_unresolved {network : Network}
    (unresolved : ∀ first others, resolve network args ≠ .ok (first :: others)) :
    createSocket network args resources = (-1, resources) := by
  rw [createSocket, createSocketBody]
  cases resolved : resolve network args with
  | error code => rfl
  | ok addresses =>
      cases addresses with
      | nil => rfl
      | cons first others => exact absurd resolved (unresolved first others)

/-- Nothing is leaked exactly when the name is not resolved, when no address is found, or when one
is found and all calls for it succeed. -/
theorem createSocket_leaksNothing_iff (network : Network) (args : SocketArgs)
    (resources : Resources) :
    LeaksNothing resources (createSocket network args resources) ↔
      ∀ first others, resolve network args = .ok (first :: others) →
        others = [] ∧ Succeeds args (addressOf network args) first := by
  by_cases unresolved : ∀ first others, resolve network args ≠ .ok (first :: others)
  · rw [createSocket_of_unresolved unresolved]
    refine ⟨fun _ first others found => absurd found (unresolved first others), fun _ => ?_⟩
    exact ⟨rfl, rfl⟩
  have found : ∃ first others, resolve network args = .ok (first :: others) := by
    simpa using unresolved
  rcases found with ⟨first, others, resolved⟩
  have onlyOne : (∀ first' others', resolve network args = .ok (first' :: others') →
      others' = [] ∧ Succeeds args (addressOf network args) first') ↔
        others = [] ∧ Succeeds args (addressOf network args) first := by
    simp [resolved]
  rw [onlyOne]
  cases walked : createSocketLoop args (addressOf network args) (-1) (first :: others)
      { resources with addressLists := resources.addressLists + 1 } with
  | error message last =>
      rw [createSocket_of_failure resolved walked]
      constructor
      · -- The list is still held.
        rintro ⟨lists, -⟩
        have kept := addressLists_of_loop_error walked
        exact absurd (kept.symm.trans lists) (Nat.succ_ne_self _)
      · rintro ⟨rfl, succeeds⟩
        rw [createSocketLoop_cons_eq_ok_iff.mpr ⟨succeeds, rfl⟩] at walked
        cases walked
  | ok fd last =>
      rw [createSocket_of_walk resolved walked]
      have continues := createSocketLoop_cons_eq_ok_iff.mp walked
      constructor
      · -- One descriptor at most is added, and every address has added one.
        rintro ⟨-, descriptors⟩
        have opened := length_openDescriptors_of_loop walked
        have room : last.openDescriptors.length ≤ resources.openDescriptors.length + 1 := by
          change last.openDescriptors = _ at descriptors
          rw [descriptors]
          split <;> simp
        rw [List.length_cons] at opened
        have none : others = [] := List.eq_nil_of_length_eq_zero (by
          dsimp only at opened
          omega)
        exact ⟨none, continues.1⟩
      · rintro ⟨rfl, succeeds⟩
        cases continues.2
        exact ⟨Nat.add_sub_cancel _ _, (if_neg succeeds.1).symm⟩

/-- The answers for an address on which every call succeeds, and which becomes descriptor `fd`. -/
def sampleCalls (fd : Int32) : AddressCalls where
  socket := fd
  getFlags := 2
  setFlags := 0
  noDelay := 0
  connect := 0
  errno := 0
  reuseAddr := 0
  bind := 0
  listen := 0
  mcastTtl := 0
  ttl := 0
  soTimestamp := 0

/-- A network on which every name is resolved to these addresses. -/
def sampleNetwork (addresses : List AddressCalls) : Network where
  interfaces := some [{ name := "lo", family := some afInet, host := "127.0.0.1" }]
  getaddrinfo _ _ _ := .ok addresses

/-- The arguments with which a listening `TCPSocket` on the loopback interface is connected. -/
def sampleListenArgs : SocketArgs where
  ip := ""
  iface := "lo"
  port := 12345
  isUdp := false
  isBlocking := false
  isListening := true
  ttl := 0
  needsSoTimestamp := true

/-- The one address can be listened on; the call returns its descriptor. -/
example : createSocket (sampleNetwork [sampleCalls 3]) sampleListenArgs {} =
    (3, { openDescriptors := [3] }) := rfl

/-- When `bind` fails, the descriptor and the list stay. When two addresses can be listened on,
the descriptor of the first one stays. -/
theorem createSocket_leaks :
    ¬LeaksNothing {}
        (createSocket (sampleNetwork [{ sampleCalls 3 with bind := -1 }]) sampleListenArgs {}) ∧
      ¬LeaksNothing {}
        (createSocket (sampleNetwork [sampleCalls 3, sampleCalls 4]) sampleListenArgs {}) := by
  constructor
  · have outcome : createSocket (sampleNetwork [{ sampleCalls 3 with bind := -1 }])
        sampleListenArgs {} = (-1, { openDescriptors := [3], addressLists := 1 }) := rfl
    rw [outcome, LeaksNothing]
    decide
  · have outcome : createSocket (sampleNetwork [sampleCalls 3, sampleCalls 4])
        sampleListenArgs {} = (4, { openDescriptors := [4, 3] }) := rfl
    rw [outcome, LeaksNothing]
    decide

end QuantEngine.SocketUtils
