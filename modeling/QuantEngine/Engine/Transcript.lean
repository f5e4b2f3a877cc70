import QuantEngine.Logger.Formatting
import QuantEngine.Messages
import QuantEngine.Queue.Shutdown
import QuantEngine.Runs.Feed

/-!
# The log of the matching engine

The thread of the matching engine logs that it started, each request that it
processes, and each response and update that it sends. When the engine is
destroyed the thread has ended, and the destructor of each book logs the book
before the logger is destroyed in its turn. The log is the work of three parts:
`log` cuts a call into elements, the logger thread writes them in the middle of
later calls, and `toString` spells the messages.

A closed log holds the lines of the calls. Nothing is known about the texts of
the books, but no other calls of the thread have the lines before them.
-/

namespace QuantEngine.MatchingEngine

open LFQueue Logger Runs Text

/-- What `ctime` returns: a line of 25 characters, the last of which ends the line. -/
@[ext]
structure CTime where
  clock : List Char
  nulFree : '\x00' ∉ clock
  length : clock.length = 24

/-- `ctime` keeps its result as a C string. -/
def CTime.chars (time : CTime) : List Char := time.clock ++ ['\n']

/-- The last character of the line is overwritten. -/
def getCurrentTimeStr (time : CTime) : List Char :=
  if time.chars ≠ [] then time.chars.set (time.chars.length - 1) '\x00' else time.chars

/-- A call of `log` that the thread of the matching engine makes. -/
inductive Entry where
  /-- At the start of `run`. -/
  | running (time : CTime)
  /-- In `run`, before `processClientRequest`. -/
  | processing (time : CTime) (clientRequest : MEClientRequest)
  /-- In `sendClientResponse`. -/
  | sendingResponse (time : CTime) (clientResponse : MEClientResponse)
  /-- In `sendMarketUpdate`. -/
  | sendingUpdate (time : CTime) (marketUpdate : MEMarketUpdate)

namespace Entry

/-- The format string of the call. -/
def format : Entry → String
  | .running _ => "%:% %() %\n"
  | .processing _ _ => "%:% %() % Processing %\n"
  | .sendingResponse _ _ => "%:% %() % Sending %\n"
  | .sendingUpdate _ _ => "%:% %() % Sending %\n"

/-- `__LINE__` -/
def line : Entry → Int32
  | .running _ => 33
  | .processing _ _ => 37
  | .sendingResponse _ _ => 59
  | .sendingUpdate _ _ => 67

/-- `__FUNCTION__` -/
def function : Entry → String
  | .running _ => "run"
  | .processing _ _ => "run"
  | .sendingResponse _ _ => "sendClientResponse"
  | .sendingUpdate _ _ => "sendMarketUpdate"

def time : Entry → CTime
  | .running time => time
  | .processing time _ => time
  | .sendingResponse time _ => time
  | .sendingUpdate time _ => time

/-- The message whose text is the last argument, except in the first call. -/
def message : Entry → Option Message
  | .running _ => none
  | .processing _ clientRequest => some (.request clientRequest)
  | .sendingResponse _ clientResponse => some (.response clientResponse)
  | .sendingUpdate _ marketUpdate => some (.update marketUpdate)

theorem nulFree_function (entry : Entry) : '\x00' ∉ entry.function.toList := by
  cases entry <;> simp [function]

theorem nulFree_format (entry : Entry) : '\x00' ∉ entry.format.toList := by
  cases entry <;> simp [format]

/-- The arguments behind the format string, with `__FILE__` before them. -/
def args (file : CString) (entry : Entry) : List Argument :=
  [.cString file, .int entry.line, .cString ⟨entry.function.toList, entry.nulFree_function⟩,
    .string (getCurrentTimeStr entry.time)] ++
  entry.message.toList.map fun message => .string message.toString.toList

variable {numElem : ℕ}

/-- The call. -/
def log (file : CString) (entry : Entry) : OutputM numElem PUnit :=
  Logger.log (entry.args file) entry.format.toList

/-- What the call pushes. -/
def elements (file : CString) (entry : Entry) : List LogElement :=
  fill (scan entry.format.toList) (entry.args file)

/-- Each call has one argument for each placeholder. -/
theorem run_log (file : CString) (entry : Entry) (output : Output numElem) :
    entry.log file output = .ok ⟨⟩ (output.pushAll (entry.elements file)) := by
  have counts : placeholders (scan entry.format.toList) = (entry.args file).length := by
    cases entry <;> simp [format, scan, placeholders, args, message]
  rw [log, Logger.run_log entry.nulFree_format, counts, outcome, if_pos rfl]
  rfl

/-- The word before the message. -/
def verb : Entry → String
  | .processing _ _ => " Processing "
  | _ => " Sending "

/-- What stands behind the time. -/
def ending (entry : Entry) : List Char :=
  match entry.message with
  | none => "\n".toList
  | some message => entry.verb.toList ++ (message.toString.toList ++ "\n".toList)

/-- The line in the log. -/
def text (file : CString) (entry : Entry) : List Char :=
  file.chars ++ (":".toList ++ (entry.line.toInt.repr.toList ++ (" ".toList ++
    (entry.function.toList ++ ("() ".toList ++ (entry.time.clock ++ entry.ending))))))

theorem beforeNul_time (time : CTime) : beforeNul (getCurrentTimeStr time) = time.clock := by
  have overwritten : getCurrentTimeStr time = time.clock ++ ['\x00'] := by
    rw [getCurrentTimeStr, if_pos (by simp [CTime.chars]), CTime.chars]
    simp
  rw [overwritten, beforeNul, List.takeWhile_append_of_pos]
  · simp
  · intro c member
    apply decide_eq_true
    intro ends
    exact time.nulFree (ends ▸ member)

theorem beforeNul_message (message : Message) :
    beforeNul message.toString.toList = message.toString.toList := by
  apply List.takeWhile_eq_self_iff.mpr
  intro c member
  apply decide_eq_true
  intro ends
  exact message.nulFree (ends ▸ member)

theorem render_chars (format : FloatFormat) (chars : List Char) :
    (chars.map LogElement.char).flatMap (LogElement.render format) = chars := by
  induction chars with
  | nil => rfl
  | cons c rest ih =>
      rw [List.map_cons, List.flatMap_cons, ih, LogElement.render, List.singleton_append]

theorem render_elements (format : FloatFormat) (file : CString) (entry : Entry) :
    (entry.elements file).flatMap (LogElement.render format) = entry.text file := by
  cases entry <;>
    simp [elements, args, Entry.format, scan, fill, Argument.elements, render_chars, text, ending,
      verb, message, beforeNul_time, beforeNul_message, LogElement.render]

/-- What the line number tells. -/
theorem of_line {first second : Entry} (lines : first.line = second.line) :
    first.function = second.function ∧ first.verb = second.verb ∧
      first.message.isSome = second.message.isSome := by
  cases first <;> cases second <;> simp [line] at lines <;> exact ⟨rfl, rfl, rfl⟩

theorem eq_of_line {first second : Entry} (lines : first.line = second.line)
    (times : first.time = second.time) (messages : first.message = second.message) :
    first = second := by
  cases first <;> cases second <;> simp [line] at lines <;> simp_all [time, message]

theorem eq_of_ending {first second : Entry} {rest others : List Char}
    (lines : first.line = second.line)
    (same : first.ending ++ rest = second.ending ++ others) :
    first.message = second.message ∧ rest = others := by
  rcases of_line lines with ⟨-, verbs, somes⟩
  cases firstMessage : first.message <;> cases secondMessage : second.message <;>
    rw [firstMessage, secondMessage] at somes <;>
    simp only [ending, firstMessage, secondMessage, List.append_assoc] at same
  case none.none => exact ⟨rfl, List.append_cancel_left same⟩
  case none.some => cases somes
  case some.none => cases somes
  case some.some message other =>
      rw [verbs] at same
      rcases Message.unambiguous (List.append_cancel_left same) with ⟨messages, remaining⟩
      exact ⟨congrArg some messages, List.append_cancel_left remaining⟩

theorem unambiguous_text (file : CString) : Unambiguous (text file) := by
  intro first second rest others same
  simp only [text, List.append_assoc] at same
  have numbered := List.append_cancel_left (List.append_cancel_left same)
  have blank : Delimited (fun number : ℤ => number.repr.toList) ' ' :=
    delimited_intRepr ⟨closing_blank.digit, closing_blank.sign⟩
  rcases blank.eq_of_append rfl rfl numbered with ⟨numbers, behindLine⟩
  have lines : first.line = second.line := Int32.toInt_inj.mp numbers
  rw [(of_line lines).1] at behindLine
  have timed := List.append_cancel_left (List.append_cancel_left (List.append_cancel_left
    behindLine))
  have lengths : first.time.clock.length = second.time.clock.length := by
    rw [first.time.length, second.time.length]
  rcases List.append_inj timed lengths with ⟨clocks, behindTime⟩
  rcases eq_of_ending lines behindTime with ⟨messages, remaining⟩
  exact ⟨eq_of_line lines (CTime.ext clocks) messages, remaining⟩

theorem text_ne_nil (file : CString) (entry : Entry) : entry.text file ≠ [] := by
  intro empty
  simp [text] at empty

end Entry

/-- The call of `log` in `~MEOrderBook`. -/
structure Closing where
  time : CTime
  /-- What `toString(false, true)` returns, which the source declares and does not define. -/
  book : List Char

namespace Closing

def format : String := "%:% %() % OrderBook\n%\n"

def function : String := "~MEOrderBook"

theorem nulFree_function : '\x00' ∉ function.toList := by
  simp [function]

theorem nulFree_format : '\x00' ∉ format.toList := by
  simp [format]

def args (file : CString) (closing : Closing) : List Argument :=
  [.cString file, .int 6, .cString ⟨function.toList, nulFree_function⟩,
    .string (getCurrentTimeStr closing.time), .string closing.book]

variable {numElem : ℕ}

def log (file : CString) (closing : Closing) : OutputM numElem PUnit :=
  Logger.log (closing.args file) format.toList

def elements (file : CString) (closing : Closing) : List LogElement :=
  fill (scan format.toList) (closing.args file)

theorem run_log (file : CString) (closing : Closing) (output : Output numElem) :
    closing.log file output = .ok ⟨⟩ (output.pushAll (closing.elements file)) := by
  have counts : placeholders (scan format.toList) = (closing.args file).length := by
    simp [format, scan, placeholders, args]
  rw [log, Logger.run_log nulFree_format, counts, outcome, if_pos rfl]
  rfl

/-- The lines in the log. -/
def text (file : CString) (closing : Closing) : List Char :=
  file.chars ++ (":6 ~MEOrderBook() ".toList ++ (closing.time.clock ++
    (" OrderBook\n".toList ++ (beforeNul closing.book ++ "\n".toList))))

theorem render_elements (format : FloatFormat) (file : CString) (closing : Closing) :
    (closing.elements file).flatMap (LogElement.render format) = closing.text file := by
  have number : (Int.repr 6).toList = ['6'] := by
    decide
  simp [elements, args, Closing.format, function, scan, fill, Argument.elements,
    Entry.render_chars, text, Entry.beforeNul_time, LogElement.render, number]

end Closing

variable {numElem : ℕ} {file bookFile : CString}

/-- Calls that are made one after the other. -/
theorem run_forM {Call : Type} {log : Call → OutputM numElem PUnit}
    {elements : Call → List LogElement}
    (run_log : ∀ call output, log call output = .ok ⟨⟩ (output.pushAll (elements call)))
    (calls : List Call) (output : Output numElem) :
    calls.forM log output = .ok ⟨⟩ (output.pushAll (calls.flatMap elements)) := by
  induction calls generalizing output with
  | nil =>
      rw [List.flatMap_nil, pushAll_nil]
      rfl
  | cons call calls ih =>
      rw [List.flatMap_cons, ← pushAll_pushAll, ← ih]
      exact Exec.run_bind_of_ok (run_log call output)

/-- The calls that reach the log of an engine: those of its thread, and then those of the books, in
the order in which `~MatchingEngine` deletes them. -/
structure Transcript where
  entries : List Entry
  closings : Fin meMaxTickers → Closing

namespace Transcript

def logAll (file bookFile : CString) (transcript : Transcript) : OutputM numElem PUnit := do
  transcript.entries.forM (Entry.log file)
  (List.ofFn transcript.closings).forM (Closing.log bookFile)

def elements (file bookFile : CString) (transcript : Transcript) : List LogElement :=
  transcript.entries.flatMap (Entry.elements file) ++
    (List.ofFn transcript.closings).flatMap (Closing.elements bookFile)

theorem run_logAll (file bookFile : CString) (transcript : Transcript) (output : Output numElem) :
    transcript.logAll file bookFile output =
      .ok ⟨⟩ (output.pushAll (transcript.elements file bookFile)) := by
  rw [elements, ← pushAll_pushAll, ← run_forM (Closing.run_log bookFile)]
  exact Exec.run_bind_of_ok (run_forM (Entry.run_log file) transcript.entries output)

/-- The lines of the books. -/
def closingText (bookFile : CString) (transcript : Transcript) : List Char :=
  (List.ofFn transcript.closings).flatMap (Closing.text bookFile)

/-- The log. -/
def text (file bookFile : CString) (transcript : Transcript) : List Char :=
  transcript.entries.flatMap (Entry.text file) ++ transcript.closingText bookFile

theorem render_elements (format : FloatFormat) (file bookFile : CString)
    (transcript : Transcript) :
    (transcript.elements file bookFile).flatMap (LogElement.render format) =
      transcript.text file bookFile := by
  have entries : ∀ entry, (Entry.elements file entry).flatMap (LogElement.render format) =
      Entry.text file entry := fun entry => entry.render_elements format file
  have closings : ∀ closing, (Closing.elements bookFile closing).flatMap
      (LogElement.render format) = Closing.text bookFile closing :=
    fun closing => closing.render_elements format bookFile
  simp only [elements, text, closingText, List.flatMap_append, List.flatMap_assoc, entries,
    closings]

/-- The first book has a line, so the lines of the books begin with their file. -/
theorem prefix_closingText (transcript : Transcript) :
    bookFile.chars <+: transcript.closingText bookFile := by
  have first : List.ofFn transcript.closings =
      transcript.closings ⟨0, by decide⟩ ::
        List.ofFn fun i => transcript.closings (Fin.succ (n := meMaxTickers - 1) i) :=
    List.ofFn_succ
  rw [closingText, first, List.flatMap_cons, Closing.text, List.append_assoc]
  exact List.prefix_append _ _

/-- The line of an entry begins with another file. -/
theorem not_prefix_closingText (apart : ¬file.chars <+: bookFile.chars)
    (otherApart : ¬bookFile.chars <+: file.chars) (transcript : Transcript) (entry : Entry) :
    ¬entry.text file <+: transcript.closingText bookFile := by
  intro starts
  have fileStarts : file.chars <+: transcript.closingText bookFile :=
    (List.prefix_append _ _).trans starts
  rcases List.prefix_or_prefix_of_prefix fileStarts transcript.prefix_closingText with less | less
  · exact apart less
  · exact otherApart less

end Transcript

/-- What the first thread pushes in the session is what these calls push. -/
def Logged (file bookFile : CString) (session : Logger.Session numElem)
    (transcript : Transcript) : Prop :=
  ∃ queue last, transcript.logAll file bookFile (⟨queue, []⟩ : Output numElem) = .ok ⟨⟩ last ∧
    session.pushed = last.pushed

theorem Logged.pushed {session : Logger.Session numElem} {transcript : Transcript}
    (logged : Logged file bookFile session transcript) :
    session.pushed = transcript.elements file bookFile := by
  rcases logged with ⟨queue, last, ran, pushed⟩
  rw [Transcript.run_logAll] at ran
  cases ran
  exact pushed

/-- A closed log holds the lines of the calls, in order and nothing else. If neither file name
begins with the other, only these calls of the thread have these lines. -/
theorem transcript_of_run [NeZero numElem] {format : FloatFormat}
    {session : Logger.Session numElem} {actions : List Logger.Action} {transcript : Transcript}
    (fits : numElem < 2 ^ 64)
    (run : Run (Logger.Step format) (Logger.new numElem) actions session)
    (closed : session.caller = .closed) (logged : Logged file bookFile session transcript) :
    session.file = transcript.text file bookFile ∧
      (¬file.chars <+: bookFile.chars → ¬bookFile.chars <+: file.chars →
        ∀ other : Transcript, other.text file bookFile = session.file →
          other.entries = transcript.entries ∧
            other.closingText bookFile = transcript.closingText bookFile) := by
  have flushes : Flushes format session :=
    run.invariant (Flushes format) flushes_new fun flushes ⟨room, ran⟩ => flushes.step fits room ran
  have empty : session.caller.SawEmpty := by
    rw [closed]
    trivial
  have lines : session.file = transcript.text file bookFile := by
    rw [flushes.file_eq empty, logged.pushed, transcript.render_elements]
  refine ⟨lines, fun apart otherApart other same => ?_⟩
  rw [lines] at same
  exact (Entry.unambiguous_text file).eq_of_append (other.not_prefix_closingText apart otherApart)
    (transcript.not_prefix_closingText apart otherApart) same

/-- The thread rejects a cancellation and accepts an order, and the engine is destroyed. -/
def sampleTranscript : Transcript where
  entries :=
    let time : CTime := ⟨List.replicate 24 'x', by decide, by decide⟩
    [.running time,
      .processing time ⟨.cancel, 1, 0, 7, .buy, 10, 5⟩,
      .sendingResponse time ⟨.cancelRejected, 1, 0, 7, orderIdInvalid, .invalid, priceInvalid,
        quantityInvalid, quantityInvalid⟩,
      .processing time ⟨.new, 1, 0, 8, .sell, -3, 5⟩,
      .sendingResponse time ⟨.accepted, 1, 0, 8, 1, .sell, -3, 0, 5⟩,
      .sendingUpdate time ⟨.add, 1, 0, .sell, -3, 5, 1⟩]
  closings ticker := ⟨⟨List.replicate 24 'y', by decide, by decide⟩, [Char.ofNat (65 + ticker)]⟩

theorem transcript_of_run_sample : ∃ file bookFile : CString, ∃ actions,
    ∃ session : Logger.Session 8,
      Run (Logger.Step ⟨fun _ => [], fun _ => []⟩) (Logger.new 8) actions session ∧
        session.caller = .closed ∧ Logged file bookFile session sampleTranscript ∧
        session.file = sampleTranscript.text file bookFile ∧
        ∀ other : Transcript, other.text file bookFile = session.file →
          other.entries = sampleTranscript.entries ∧
            other.closingText bookFile = sampleTranscript.closingText bookFile := by
  let file : CString := ⟨"matching_engine.cpp".toList, by decide⟩
  let bookFile : CString := ⟨"me_order_book.cpp".toList, by decide⟩
  have several : 1 < 8 := by
    decide
  rcases exists_run_of_elements several (sampleTranscript.elements file bookFile) with
    ⟨actions, session, run, closed, pushed⟩
  have logged : Logged file bookFile session sampleTranscript :=
    ⟨LFQueue.new 8, _, sampleTranscript.run_logAll file bookFile _, pushed⟩
  rcases transcript_of_run (by decide) run closed logged with ⟨lines, unique⟩
  exact ⟨file, bookFile, actions, session, run, closed, logged, lines,
    unique (by decide) (by decide)⟩

def Entry.clientResponse : Entry → Option MEClientResponse
  | .sendingResponse _ clientResponse => some clientResponse
  | _ => none

def Entry.marketUpdate : Entry → Option MEMarketUpdate
  | .sendingUpdate _ marketUpdate => some marketUpdate
  | _ => none

/-- The calls are made while a book serves orders and cancellations. -/
structure Reports (entries : List Entry) (book : MEOrderBook) : Prop where
  run : ∃ tickerId ops, Run MEOrderBook.TradingStep (MEOrderBook.empty tickerId) ops book ∧
    ops.length + 1 < UInt64.size
  responses : entries.filterMap Entry.clientResponse = book.responses
  updates : entries.filterMap Entry.marketUpdate = book.updates

/-- The log alone tells which responses and updates were sent, and which orders are in use: two
books with the same log agree on all of it. -/
theorem book_of_log {file : CString} {entries others : List Entry} {first second : MEOrderBook}
    (reports : Reports entries first) (otherReports : Reports others second)
    (same : entries.flatMap (Entry.text file) = others.flatMap (Entry.text file)) :
    first.responses = second.responses ∧ first.updates = second.updates ∧
      ∀ id quote,
        (∃ elem, first.OrderInUse elem ∧ (first.orderData elem).marketOrderId = id ∧
            (first.orderData elem).quote = quote) ↔
          ∃ elem, second.OrderInUse elem ∧ (second.orderData elem).marketOrderId = id ∧
            (second.orderData elem).quote = quote := by
  have calls : entries = others :=
    (Entry.unambiguous_text file).flatMap_injective (Entry.text_ne_nil file) same
  subst calls
  have updates : first.updates = second.updates := reports.updates.symm.trans otherReports.updates
  refine ⟨reports.responses.symm.trans otherReports.responses, updates, fun id quote => ?_⟩
  rcases reports.run with ⟨tickerId, ops, run, room⟩
  rcases otherReports.run with ⟨otherId, otherOps, otherRun, otherRoom⟩
  have described := (MEOrderBook.Described.of_run run room).describes id quote
  have otherDescribed := (MEOrderBook.Described.of_run otherRun otherRoom).describes id quote
  rw [← described, ← otherDescribed, updates]

/-- The books of two tickers that serve the same order. -/
theorem book_of_log_sample : ∃ first second : MEOrderBook,
    first.tickerId ≠ second.tickerId ∧ first.updates ≠ [] ∧ first.updates = second.updates := by
  let order := MEOrderBook.limitOrder 1 .buy 10 5
  let time : CTime := ⟨List.replicate 24 'x', by decide, by decide⟩
  let update : MEMarketUpdate := ⟨.add, 1, 0, .buy, 10, 5, 1⟩
  let entries := [Entry.sendingResponse time (order.acceptedResponse 1), .sendingUpdate time update]
  have served : ∀ tickerId, (execute (MEOrderBook.Op.next fun _ op => op.IsTrading)
      (MEOrderBook.empty tickerId) [.submit order]).any (fun (book : MEOrderBook) =>
        book.tickerId = tickerId ∧ book.responses = [order.acceptedResponse 1] ∧
          book.updates = [update]) = true → ∃ book, book.tickerId = tickerId ∧
        Reports entries book := by
    intro tickerId executed
    rcases (Option.any_eq_true _ _).mp executed with ⟨book, reached, facts⟩
    rcases of_decide_eq_true facts with ⟨ticker, responses, updates⟩
    exact ⟨book, ticker, ⟨tickerId, _, Run.of_execute MEOrderBook.Op.step_of_next reached,
      by decide⟩, responses.symm, updates.symm⟩
  rcases served 0 (by decide +kernel) with ⟨first, firstTicker, reports⟩
  rcases served 1 (by decide +kernel) with ⟨second, secondTicker, otherReports⟩
  have agrees := book_of_log reports otherReports
    (rfl : entries.flatMap (Entry.text ⟨['m'], by decide⟩) = _)
  refine ⟨first, second, ?_, ?_, agrees.2.1⟩
  · rw [firstTicker, secondTicker]
    decide
  · rw [← reports.updates]
    exact List.cons_ne_nil _ _

end QuantEngine.MatchingEngine
