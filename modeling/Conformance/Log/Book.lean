import Conformance.Files.Error
import Conformance.Log.Entry
import Conformance.Report

namespace Conformance.Log

open Json

-- What names the lines of a log, and how many were named.
structure Emitter where
  suite : String
  runId : String
  named : Nat := 0
deriving DecidableEq, Repr

namespace Emitter

def traceId (e : Emitter) (number : Nat) : String :=
  e.suite ++ "::" ++ e.runId ++ "::" ++ Text.zeroPadded 3 number

-- An entry without a trace id gets the next one, an entry without a run id
-- gets the emitter's.
def complete (e : Emitter) (entry : Entry) : Entry × Emitter :=
  let (entry, e) :=
    if entry.traceId = "" then
      ({ entry with traceId := e.traceId (e.named + 1) }, { e with named := e.named + 1 })
    else (entry, e)
  ({ entry with runId := some (entry.runId.getD e.runId) }, e)

def lineText (entry : Entry) : String :=
  entry.line ++ "\n"

end Emitter

-- A log that is being written: the entries so far, and what names them.
structure Book where
  emitter : Emitter
  entries : List Entry := []
  -- what writing into its file fails with
  fault? : Option IoError := none

namespace Book

def opened (suite runId : String) : Book :=
  { emitter := { suite := suite, runId := runId } }

-- One more entry as it is, but for the names that it lacks. It is given back as it is logged.
def put (b : Book) (e : Entry) : Entry × Book :=
  let (e, emitter) := b.emitter.complete e
  (e, { b with emitter := emitter, entries := b.entries ++ [e] })

-- One more entry, dated by a clock that counts the entries.
def add (b : Book) (clock : Nat → String) (e : Entry) : Book :=
  (b.put { e with timestamp := clock b.entries.length }).2

def text (b : Book) : String :=
  String.join (b.entries.map Emitter.lineText)

-- How many bytes are held back before the file is written.
def heldBytes : Nat := 8192

-- One more entry of a run. That nothing can be written into the file shows when there is more
-- than can be held back.
def emit (b : Book) (clock : Nat → String) (e : Entry) : Except IoError Unit × Book :=
  let after := b.add clock e
  match b.fault? with
  | none => (.ok (), after)
  | some cause =>
      if after.text.utf8ByteSize ≤ heldBytes then (.ok (), after) else (.error cause, b)

-- All that is held back goes into the file.
def flush (b : Book) : Except IoError Unit :=
  match b.fault? with
  | none => .ok ()
  | some cause => if b.entries.isEmpty then .ok () else .error cause

-- The same for a run, with a log or without one.
def emitIn (clock : Nat → String) (e : Entry) :
    Option Book → Except IoError Unit × Option Book
  | none => (.ok (), none)
  | some b =>
      let (result, b) := b.emit clock e
      (result, some b)

def flushIn : Option Book → Except IoError Unit
  | none => .ok ()
  | some b => b.flush

end Book

namespace Entry

-- An entry that is not dated and not named yet.
def draft (level : Level) (event : String) : Entry :=
  { timestamp := "", traceId := "", level := level, event := event }

end Entry

-- What can be asked of a log: a line for an event alone, a line for an entry that was made
-- before, or that nothing is held back.
inductive Request where
  | event (level : Level) (event : String)
  | entry (e : Entry)
  | flush

-- What a request brings before the log, at some time.
def Request.entry? (now : String) : Request → Option Entry
  | event level name => some { Entry.draft level name with timestamp := now }
  | entry e => some e
  | flush => none

namespace Book

def serve (b : Book) (clock : Nat → String) (r : Request) : Option Entry × Book :=
  match r.entry? (clock b.entries.length) with
  | some e =>
      let (e, b) := b.put e
      (some e, b)
  | none => (none, b)

-- Requests one after the other, with what each of them is answered.
def serveAll (clock : Nat → String) : Book → List Request → List (Option Entry) × Book
  | b, [] => ([], b)
  | b, r :: rest =>
      let (answer, b) := b.serve clock r
      let (answers, b) := b.serveAll clock rest
      (answer :: answers, b)

end Book

namespace Entry

def runStart (mode : String) (categories : List Category) (fixtures : Nat) : Entry :=
  { draft .info "run_start" with
    details := some (.object [
      ("categories", .array (categories.map Category.toValue)),
      ("fixtures", .nat fixtures),
      ("mode", .string mode)]) }

def categoryStart (category : Category) (fixtures skipped : Nat) : Entry :=
  { draft .info "category_start" with
    category := some category
    details := some (.object [("fixtures", .nat fixtures), ("skipped", .nat skipped)]) }

def categoryEnd (r : CategoryReport) : Entry :=
  { draft (if r.failed = 0 then .info else .warn) "category_end" with
    category := some r.category
    details := some (.object [
      ("failed", .nat r.failed),
      ("passed", .nat r.passed),
      ("skipped", .nat r.skipped),
      ("total", .nat r.total)]) }

def runEnd (s : Summary) : Entry :=
  { draft .info "run_end" with
    outcome := some (if s.allPassed then .pass else .fail)
    durationMs := some ((s.results.map Verdict.elapsedMs).foldr (· + ·) 0)
    details := some (.object [
      ("failed", .nat s.failed), ("passed", .nat s.passed), ("total", .nat s.total)]) }

-- How a verdict came out, and how grave that is.
def markOf (v : Verdict) : Mark × Level :=
  if v.passed then (.pass, .info)
  else match v.outcome with
    | .timedOut _ => (.timeout, .warn)
    | .crashed _ _ => (.error, .error)
    | _ => (.fail, .warn)

-- The stage that decided an outcome.
def decidingStage : Outcome → Stage
  | .accepted => .compile
  | .rejectedAs _ => .compile
  | .exited _ => .emulate
  | .timedOut stage => stage
  | .crashed stage _ => stage

def codeOf : Outcome → Option Int
  | .rejectedAs code => some code
  | .exited code => some code
  | _ => none

def ofVerdict (v : Verdict) : Entry :=
  let (mark, level) := markOf v
  { draft level "fixture_verdict" with
    category := some v.category
    fixture := some v.fixtureId
    stage := some (decidingStage v.outcome)
    outcome := some mark
    exitCode := codeOf v.outcome
    durationMs := some v.elapsedMs
    details := some (.object [
      ("expected", .string v.expected), ("observed", .string v.outcome.message)]) }

end Entry

end Conformance.Log
