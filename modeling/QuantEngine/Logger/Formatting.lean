import Mathlib.Data.List.TakeWhile
import QuantEngine.Logger

/-!
# The format strings of the logger

What `log` pushes, told from the format string alone: a scan from left to right
cuts it into literal characters and placeholders, and the arguments are filled
in from left to right.

`run_log` gives the outcome of every call. It pushes what could be filled in,
and then stops with the message for a missing argument or for one too many
unless there is one argument for each placeholder.
-/

namespace QuantEngine.Logger

/-- What a part of a format string stands for. -/
inductive Token where
  | literal (c : Char)
  | placeholder
  deriving DecidableEq

/-- The parts of a format string, from left to right. -/
def scan : List Char → List Token
  | [] => []
  | '%' :: '%' :: rest => .literal '%' :: scan rest
  | '%' :: rest => .placeholder :: scan rest
  | c :: rest => .literal c :: scan rest

/-- The number of arguments that a format string asks for. -/
def placeholders (tokens : List Token) : ℕ := tokens.count .placeholder

/-- The characters of a `std::string` before the first NUL, which are those behind `c_str()`. -/
def beforeNul (value : List Char) : List Char := value.takeWhile (· ≠ '\x00')

/-- The elements an argument is logged as. -/
def Argument.elements : Argument → List LogElement
  | .logElement value => [value]
  | .char value => [.char value]
  | .cString value => value.chars.map .char
  | .int value => [.integer value]
  | .long value => [.longInteger value]
  | .longLong value => [.longLongInteger value]
  | .unsigned value => [.unsignedInteger value]
  | .unsignedLong value => [.unsignedLongInteger value]
  | .unsignedLongLong value => [.unsignedLongLongInteger value]
  | .float bits => [.float bits]
  | .double bits => [.double bits]
  | .string value => (beforeNul value).map .char

/-- The tokens with the arguments in place of the placeholders, up to the first placeholder
without an argument. -/
def fill : List Token → List Argument → List LogElement
  | [], _ => []
  | .literal c :: tokens, args => .char c :: fill tokens args
  | .placeholder :: _, [] => []
  | .placeholder :: tokens, value :: args => value.elements ++ fill tokens args

variable {numElem : ℕ}

/-- The elements have been pushed, in order. -/
def Output.pushAll (output : Output numElem) (elements : List LogElement) : Output numElem where
  queue := elements.foldl LFQueue.write output.queue
  pushed := output.pushed ++ elements

@[simp]
theorem pushAll_nil (output : Output numElem) : output.pushAll [] = output := by
  simp [Output.pushAll]

@[simp]
theorem pushAll_push (output : Output numElem) (first : LogElement) (elements : List LogElement) :
    (output.push first).pushAll elements = output.pushAll (first :: elements) := by
  simp [Output.pushAll, Output.push]

@[simp]
theorem pushAll_pushAll (output : Output numElem) (first second : List LogElement) :
    (output.pushAll first).pushAll second = output.pushAll (first ++ second) := by
  simp [Output.pushAll]

theorem run_pushElement (logElement : LogElement) (output : Output numElem) :
    pushElement logElement output = .ok ⟨⟩ (output.pushAll [logElement]) := rfl

theorem run_pushElement_bind (logElement : LogElement) (output : Output numElem)
    (next : PUnit → OutputM numElem PUnit) :
    (pushElement logElement >>= next) output = next ⟨⟩ (output.push logElement) := rfl

/-- `pushValue(const char*)` stops at the first NUL. -/
theorem run_pushChars (chars : List Char) (output : Output numElem) :
    pushChars chars output = .ok ⟨⟩ (output.pushAll ((beforeNul chars).map .char)) := by
  induction chars generalizing output with
  | nil =>
      rw [pushChars]
      simp [beforeNul]
  | cons c rest ih =>
      rw [pushChars]
      by_cases ends : c = '\x00'
      · simp [ends, beforeNul]
      · have goesOn : beforeNul (c :: rest) = c :: beforeNul rest := by simp [beforeNul, ends]
        simp only [ends, if_false]
        rw [run_pushElement_bind, ih, goesOn, List.map_cons, pushAll_push]

/-- A C string is all before its terminator. -/
theorem beforeNul_chars (value : CString) : beforeNul value.chars = value.chars := by
  apply List.takeWhile_eq_self_iff.mpr
  intro c member
  apply decide_eq_true
  intro ends
  exact value.nulFree (ends ▸ member)

/-- Each overload of `pushValue` pushes the elements of its argument and returns. -/
theorem run_pushValue (value : Argument) (output : Output numElem) :
    pushValue value output = .ok ⟨⟩ (output.pushAll value.elements) := by
  cases value with
  | cString value =>
      apply (run_pushChars value.chars output).trans
      rw [beforeNul_chars]
      rfl
  | string value => exact run_pushChars value output
  | _ => exact run_pushElement _ output

section Loop

variable {atPlaceholder : List Char → OutputM numElem PUnit} {behind : OutputM numElem PUnit}

theorem logLoop_escape (rest : List Char) (output : Output numElem) :
    logLoop atPlaceholder behind ('%' :: '%' :: rest) output =
      logLoop atPlaceholder behind rest (output.push (.char '%')) := by
  rw [logLoop.eq_def]
  simp [run_pushElement_bind]

theorem logLoop_placeholder {rest : List Char}
    (unescaped : ∀ after, rest = '%' :: after → False) (output : Output numElem) :
    logLoop atPlaceholder behind ('%' :: rest) output = atPlaceholder rest output := by
  rw [logLoop]
  · simp
  · exact unescaped

theorem logLoop_literal {c : Char} (inside : c ≠ '\x00') (plain : c ≠ '%') (rest : List Char)
    (output : Output numElem) :
    logLoop atPlaceholder behind (c :: rest) output =
      logLoop atPlaceholder behind rest (output.push (.char c)) := by
  rw [logLoop.eq_def]
  simp [inside, plain, run_pushElement_bind]

end Loop

/-- Both overloads are the loop. -/
theorem log_eq_logLoop (numElem : ℕ) (args : List Argument) :
    ∃ atPlaceholder behind, (log args : List Char → OutputM numElem PUnit) =
      logLoop atPlaceholder behind := by
  cases args with
  | nil => exact ⟨_, _, rfl⟩
  | cons value args => exact ⟨_, _, rfl⟩

theorem log_escape (args : List Argument) (rest : List Char) (output : Output numElem) :
    log args ('%' :: '%' :: rest) output = log args rest (output.push (.char '%')) := by
  obtain ⟨atPlaceholder, behind, loops⟩ := log_eq_logLoop numElem args
  rw [loops, logLoop_escape]

theorem log_literal (args : List Argument) {c : Char} (inside : c ≠ '\x00') (plain : c ≠ '%')
    (rest : List Char) (output : Output numElem) :
    log args (c :: rest) output = log args rest (output.push (.char c)) := by
  obtain ⟨atPlaceholder, behind, loops⟩ := log_eq_logLoop numElem args
  rw [loops, logLoop_literal inside plain]

/-- At a placeholder the next argument is pushed and the scan goes on without it. -/
theorem log_placeholder (value : Argument) (args : List Argument) {rest : List Char}
    (unescaped : ∀ after, rest = '%' :: after → False) (output : Output numElem) :
    log (value :: args) ('%' :: rest) output = log args rest (output.pushAll value.elements) := by
  rw [log, logLoop_placeholder unescaped]
  exact Exec.run_bind_of_ok (run_pushValue value output)

/-- How a call ends that asked for so many arguments and was given so many. -/
def outcome (asked given : ℕ) (output : Output numElem) :
    EStateM.Result Fault (Output numElem) PUnit :=
  if asked = given then .ok ⟨⟩ output
  else if given < asked then .error (.fatal "missing args to log()") output
  else .error (.fatal "extra arguments provided to log()") output

@[simp]
theorem outcome_succ (asked given : ℕ) (output : Output numElem) :
    outcome (asked + 1) (given + 1) output = outcome asked given output := by
  simp [outcome]

/-- The induction is on the string, with the arguments and the output free: at a placeholder the
rest of the string is scanned with one argument less. -/
theorem run_log {format : List Char} (nulFree : '\x00' ∉ format) (args : List Argument)
    (output : Output numElem) :
    log args format output = outcome (placeholders (scan format)) args.length
      (output.pushAll (fill (scan format) args)) := by
  induction format using scan.induct generalizing args output with
  | case1 =>
      rw [scan, fill, pushAll_nil]
      cases args with
      | nil => rfl
      | cons value args => rfl
  | case2 rest ih =>
      have restFree : '\x00' ∉ rest := by
        intro member
        exact nulFree (List.mem_cons_of_mem _ (List.mem_cons_of_mem _ member))
      rw [log_escape, ih restFree, scan, fill, pushAll_push]
      rfl
  | case3 rest unescaped ih =>
      have restFree : '\x00' ∉ rest := by
        intro member
        exact nulFree (List.mem_cons_of_mem _ member)
      rw [scan]
      · cases args with
        | nil => 
            rw [fill, pushAll_nil]
            apply (logLoop_placeholder unescaped output).trans
            simp [outcome, placeholders]
        | cons value args =>
            rw [log_placeholder value args unescaped, ih restFree, fill, pushAll_pushAll]
            simp [placeholders]
      · exact unescaped
  | case4 c rest notEscape notPlaceholder ih =>
      have inside : c ≠ '\x00' := by
        intro ends
        exact nulFree (ends ▸ List.mem_cons_self)
      have plain : c ≠ '%' := fun percent => notPlaceholder percent
      have restFree : '\x00' ∉ rest := by
        intro member
        exact nulFree (List.mem_cons_of_mem _ member)
      rw [log_literal args inside plain, ih restFree, scan, fill, pushAll_push]
      · rfl
      · exact notEscape
      · exact notPlaceholder

/-- The elements that are pushed are the unread elements that the queue gains. -/
theorem holds_pushAll {output : Output numElem} {items elements : List LogElement}
    (holds : output.queue.Holds items) (room : items.length + elements.length < numElem) :
    (output.pushAll elements).queue.Holds (items ++ elements) :=
  holds.foldl_write room

/-- A format string with its arguments: the process exits exactly when there is not one argument
for each placeholder, and otherwise the elements pushed are the literal characters with the
elements of the arguments in place of the placeholders, which the queue then holds last if there is
room for them. -/
theorem log_formats (format : CString) (args : List Argument) (output : Output numElem) :
    ((∃ message last, log args format.chars output = .error (.fatal message) last) ↔
      placeholders (scan format.chars) ≠ args.length) ∧
    (placeholders (scan format.chars) = args.length →
      log args format.chars output =
        .ok ⟨⟩ (output.pushAll (fill (scan format.chars) args)) ∧
      ∀ items, output.queue.Holds items →
        items.length + (fill (scan format.chars) args).length < numElem →
        (output.pushAll (fill (scan format.chars) args)).queue.Holds
          (items ++ fill (scan format.chars) args)) := by
  rw [run_log format.nulFree]
  refine ⟨⟨?_, ?_⟩, fun same => ⟨?_, fun items holds room => holds_pushAll holds room⟩⟩
  · rintro ⟨message, last, stopped⟩ same
    rw [outcome, if_pos same] at stopped
    cases stopped
  · intro differ
    rw [outcome, if_neg differ]
    split
    · exact ⟨_, _, rfl⟩
    · exact ⟨_, _, rfl⟩
  · rw [outcome, if_pos same]

/-- The string `x%%%` with one argument, which itself contains a `%`. -/
theorem log_formats_escaped :
    log [.cString ⟨['%', '%'], by decide⟩] ['x', '%', '%', '%'] (⟨LFQueue.new 8, []⟩ : Output 8) =
      .ok ⟨⟩ ((⟨LFQueue.new 8, []⟩ : Output 8).pushAll
        [.char 'x', .char '%', .char '%', .char '%']) :=
  ((log_formats ⟨['x', '%', '%', '%'], by decide⟩ [.cString ⟨['%', '%'], by decide⟩]
    ⟨LFQueue.new 8, []⟩).2 rfl).1

end QuantEngine.Logger
