import Conformance.Config.Json
import Conformance.Stage

namespace Conformance.Log

open Json

inductive Level where
  | trace
  | debug
  | info
  | warn
  | error
deriving DecidableEq, Repr

namespace Level

def all : List Level :=
  [trace, debug, info, warn, error]

def name : Level → String
  | trace => "trace"
  | debug => "debug"
  | info => "info"
  | warn => "warn"
  | error => "error"

def decoder : Decoder Level :=
  .variant (all.map fun l => (l.name, l))

end Level

-- How a fixture or a run came out, as a log tells it.
inductive Mark where
  | pass
  | fail
  | skip
  | error
  | timeout
deriving DecidableEq, Repr

namespace Mark

def all : List Mark :=
  [pass, fail, skip, error, timeout]

def name : Mark → String
  | pass => "pass"
  | fail => "fail"
  | skip => "skip"
  | error => "error"
  | timeout => "timeout"

def decoder : Decoder Mark :=
  .variant (all.map fun m => (m.name, m))

end Mark

-- One line of a log.
structure Entry where
  timestamp : String
  traceId : String
  level : Level
  event : String
  runId : Option String := none
  category : Option Category := none
  fixture : Option String := none
  -- the stage that decided the outcome
  stage : Option Stage := none
  outcome : Option Mark := none
  exitCode : Option Int := none
  durationMs : Option Nat := none
  artifactRefs : Option (List String) := none
  details : Option Value := none

namespace Entry

def layout : Layout Entry where
  name := "LogEntry"
  fields := [
    .required "timestamp" .string fun v e => { e with timestamp := v },
    .required "trace_id" .string fun v e => { e with traceId := v },
    .required "level" Level.decoder fun v e => { e with level := v },
    .required "event" .string fun v e => { e with event := v },
    .absent "run_id" .string fun v e => { e with runId := v },
    .absent "category" Category.decoder fun v e => { e with category := v },
    .absent "fixture" .string fun v e => { e with fixture := v },
    .absent "stage" Stage.decoder fun v e => { e with stage := v },
    .absent "outcome" Mark.decoder fun v e => { e with outcome := v },
    .absent "exit_code" .int32 fun v e => { e with exitCode := v },
    .absent "duration_ms" .nat64 fun v e => { e with durationMs := v },
    .absent "artifact_refs" (.list .string) fun v e => { e with artifactRefs := v },
    .absent "details" .any fun v e => { e with details := v }]
  blank := { timestamp := "", traceId := "", level := .trace, event := "" }

def decoder : Decoder Entry :=
  layout.decode

-- A member for a field that is there.
def present (name : String) (f : α → Value) : Option α → List (String × Value)
  | some a => [(name, f a)]
  | none => []

def toValue (e : Entry) : Value :=
  .object ([
    ("timestamp", .string e.timestamp),
    ("trace_id", .string e.traceId),
    ("level", .string e.level.name),
    ("event", .string e.event)] ++
    present "run_id" .string e.runId ++
    present "category" Category.toValue e.category ++
    present "fixture" .string e.fixture ++
    present "stage" Stage.toValue e.stage ++
    present "outcome" (fun m => .string m.name) e.outcome ++
    present "exit_code" .int e.exitCode ++
    present "duration_ms" .nat e.durationMs ++
    present "artifact_refs" strings e.artifactRefs ++
    present "details" id e.details)

def line (e : Entry) : String :=
  e.toValue.compact

end Entry

end Conformance.Log
