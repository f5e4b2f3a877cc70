import QuantEngine.Library.Exec
import QuantEngine.Queue.Threads
import QuantEngine.Types

/-!
# The logger

The model of `Logger`: one thread that calls `pushValue` and later runs the
destructor, and the logger thread, which runs `flushQueue`. The two are
interleaved at every access to an atomic and at every write to the file.

The calls of `log`, which the first thread makes, are modelled apart from the
interleaving: what they do to the queue is a sequence of `pushValue` calls.
A `const char*` is the list of the characters from it to the terminating NUL,
so `s + 1` is the tail of `s`.

The elements go through an `LFQueue`, whose steps are those of `LFQueue.Threads`.
What `operator<<` prints for the floating-point types is not part of the source.
-/

namespace QuantEngine

/-- `LogElement`: the tag `type_` and the member of the union that it names. A floating-point
value is kept as its bits. -/
inductive LogElement where
  | char (value : Char)
  | integer (value : Int32)
  | longInteger (value : Int64)
  | longLongInteger (value : Int64)
  | unsignedInteger (value : UInt32)
  | unsignedLongInteger (value : UInt64)
  | unsignedLongLongInteger (value : UInt64)
  | float (bits : UInt32)
  | double (bits : UInt64)
  deriving DecidableEq

instance : Inhabited LogElement := ⟨.char '\x00'⟩

/-- What a stream prints for floating-point values. -/
structure FloatFormat where
  float : UInt32 → List Char
  double : UInt64 → List Char

/-- What `file_ << ..` writes, in the `switch` of `flushQueue`. -/
def LogElement.render (format : FloatFormat) : LogElement → List Char
  | .char value => [value]
  | .integer value => (toString value.toInt).toList
  | .longInteger value => (toString value.toInt).toList
  | .longLongInteger value => (toString value.toInt).toList
  | .unsignedInteger value => (toString value.toNat).toList
  | .unsignedLongInteger value => (toString value.toNat).toList
  | .unsignedLongLongInteger value => (toString value.toNat).toList
  | .float bits => format.float bits
  | .double bits => format.double bits

namespace Logger

open LFQueue

/-- Where the thread is that uses the logger and then destroys it. -/
inductive Caller where
  /-- Outside the destructor; a call of `pushValue` may be in progress. -/
  | logging
  /-- In the `while` loop of the destructor. -/
  | waiting
  /-- Behind the loop, before `running_ = false`. -/
  | stopping
  /-- In `logger_thread_->join()`. -/
  | joining
  /-- Before `file_.close()`. -/
  | closing
  | closed
  deriving DecidableEq

/-- Where `flushQueue` is. -/
inductive Flusher where
  /-- At the condition of the `while` loop. -/
  | testing
  /-- Before a call of `getNextToRead`. -/
  | fetching
  /-- In that call. -/
  | comparing
  /-- At the condition of the `for` loop. -/
  | sizing
  /-- In the `switch`. -/
  | writing
  /-- Before the call of `updataReadIndex`. -/
  | releasing
  /-- In that call. -/
  | advancing
  | finished
  deriving DecidableEq

/-- The state of the two threads. `pushed` records the arguments of `pushValue`. -/
structure Session (numElem : ℕ) where
  threads : Threads LogElement numElem
  caller : Caller := .logging
  flusher : Flusher := .testing
  running : Bool := true
  file : List Char := []
  pushed : List LogElement := []

/-- A step: a call of `pushValue`, the start of the destructor, or the next access of a thread. -/
inductive Action where
  | pushValue (logElement : LogElement)
  | destroy
  | caller
  | flusher
  deriving DecidableEq

variable {numElem : ℕ}

/-- The next access of the thread that uses the logger. -/
def stepCaller (session : Session numElem) : Option (Session numElem) :=
  match session.caller with
  | .logging =>
      (session.threads.step .producer).map fun threads => { session with threads := threads }
  | .waiting => some { session with
      caller := if session.threads.queue.numElements = 0 then .stopping else .waiting }
  | .stopping => some { session with running := false, caller := .joining }
  | .joining =>
      if session.flusher = .finished then some { session with caller := .closing } else none
  | .closing => some { session with caller := .closed }
  | .closed => none

/-- The next access of the logger thread. -/
def stepFlusher (format : FloatFormat) (session : Session numElem) : Option (Session numElem) :=
  match session.flusher with
  | .testing => some { session with
      flusher := if session.running then .fetching else .finished }
  | .fetching => (session.threads.step .getNextToRead).map fun threads => { session with
      threads := threads
      flusher := .comparing }
  | .comparing => (session.threads.step .consumer).map fun threads => { session with
      threads := threads
      flusher := if threads.consumer = .idle then .sizing else .comparing }
  | .sizing => (session.threads.step .size).map fun threads => { session with
      threads := threads
      flusher := if threads.queue.numElements ≠ 0 ∧ threads.next ≠ none then .writing
        else .testing }
  | .writing =>
      match session.threads.next with
      | none => none
      | some next => (session.threads.step .read).map fun threads => { session with
          threads := threads
          file := session.file ++ (session.threads.queue.store next).render format
          flusher := .releasing }
  | .releasing => (session.threads.step .updataReadIndex).map fun threads => { session with
      threads := threads
      flusher := .advancing }
  | .advancing => (session.threads.step .consumer).map fun threads => { session with
      threads := threads
      flusher := if threads.consumer = .idle then .fetching else .advancing }
  | .finished => none

def step (format : FloatFormat) (session : Session numElem) : Action → Option (Session numElem)
  | .pushValue logElement =>
      if session.caller = .logging then
        (session.threads.step (.getNextToWriteTo logElement)).map fun threads => { session with
          threads := threads
          pushed := session.pushed ++ [logElement] }
      else none
  | .destroy =>
      if session.caller = .logging ∧ session.threads.producer = .idle then
        some { session with caller := .waiting }
      else none
  | .caller => stepCaller session
  | .flusher => stepFlusher format session

/-- A constructed logger, with an open file and the logger thread started. -/
def new (numElem : ℕ) [NeZero numElem] : Session numElem where
  threads := Threads.new numElem

/-- The characters of a C string, up to its terminator. -/
structure CString where
  chars : List Char
  nulFree : '\x00' ∉ chars

/-- A value of one of the types for which `pushValue` is overloaded. -/
inductive Argument where
  | logElement (value : LogElement)
  | char (value : Char)
  | cString (value : CString)
  | int (value : Int32)
  | long (value : Int64)
  | longLong (value : Int64)
  | unsigned (value : UInt32)
  | unsignedLong (value : UInt64)
  | unsignedLongLong (value : UInt64)
  | float (bits : UInt32)
  | double (bits : UInt64)
  | string (value : List Char)

/-- What `log` writes to. `pushed` records the arguments of `pushValue`. -/
structure Output (numElem : ℕ) where
  queue : LFQueue LogElement numElem
  pushed : List LogElement := []

abbrev OutputM (numElem : ℕ) := EStateM Fault (Output numElem)

/-- One call of `pushValue(const LogElement&)`. -/
def Output.push (output : Output numElem) (logElement : LogElement) : Output numElem where
  queue := output.queue.write logElement
  pushed := output.pushed ++ [logElement]

def pushElement (logElement : LogElement) : OutputM numElem PUnit :=
  modify fun output => output.push logElement

/-- `pushValue(const char*)`. The loop ends at the first NUL, which in the characters of a
`std::string` may come before their end. -/
def pushChars : List Char → OutputM numElem PUnit
  | [] => pure ⟨⟩
  | c :: rest =>
      if c = '\x00' then pure ⟨⟩
      else do
        pushElement (.char c)
        pushChars rest

/-- The overloads of `pushValue`. -/
def pushValue : Argument → OutputM numElem PUnit
  | .logElement value => pushElement value
  | .char value => pushElement (.char value)
  | .cString value => pushChars value.chars
  | .int value => pushElement (.integer value)
  | .long value => pushElement (.longInteger value)
  | .longLong value => pushElement (.longLongInteger value)
  | .unsigned value => pushElement (.unsignedInteger value)
  | .unsignedLong value => pushElement (.unsignedLongInteger value)
  | .unsignedLongLong value => pushElement (.unsignedLongLongInteger value)
  | .float bits => pushElement (.float bits)
  | .double bits => pushElement (.double bits)
  | .string value => pushChars value

/-- The `while` loop that both overloads of `log` contain. They differ in what they do at a
placeholder, where the loop is left with `s + 1`, and behind the loop. -/
def logLoop (atPlaceholder : List Char → OutputM numElem PUnit) (behind : OutputM numElem PUnit) :
    List Char → OutputM numElem PUnit
  | [] => behind
  | c :: rest =>
      if c = '\x00' then behind
      else if c = '%' then
        match rest with
        | '%' :: after => do
            -- the first `%` was skipped
            pushElement (.char '%')
            logLoop atPlaceholder behind after
        | _ => atPlaceholder rest
      else do
        pushElement (.char c)
        logLoop atPlaceholder behind rest

/-- `log(const char*)`, behind which the end of the string is the end of the call. -/
def logBase : List Char → OutputM numElem PUnit :=
  logLoop (fun _ => throw (.fatal "missing args to log()")) (pure ⟨⟩)

/-- `log(const char*, const T&, Args...)`, and `log(const char*)` without arguments. -/
def log : List Argument → List Char → OutputM numElem PUnit
  | [] => logBase
  | value :: args =>
      logLoop
        (fun rest => do
          pushValue value
          log args rest)
        (throw (.fatal "extra arguments provided to log()"))

end Logger

end QuantEngine
