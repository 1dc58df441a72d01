import Conformance.Process.Status

namespace Conformance

open Json

-- The steps of a run, one external command each.
inductive Stage where
  | compile
  | assemble
  | emulate
deriving DecidableEq, Repr

namespace Stage

def all : List Stage :=
  [compile, assemble, emulate]

def name : Stage → String
  | compile => "compile"
  | assemble => "assemble"
  | emulate => "emulate"

def decoder : Decoder Stage :=
  .variant (all.map fun s => (s.name, s))

def toValue (s : Stage) : Value :=
  .string s.name

end Stage

-- The ends of a stage's captured streams.
structure Diagnostics where
  stdout : String
  stderr : String
deriving DecidableEq, Repr

-- What happened in one stage.
structure StageRecord where
  stage : Stage
  command : String
  status : Status
  elapsedMs : Nat
  diagnostics : Option Diagnostics
deriving DecidableEq, Repr

namespace Diagnostics

def layout : Layout Diagnostics where
  name := "StageDiagnostics"
  fields := [
    .required "stdout" .string fun v d => { d with stdout := v },
    .required "stderr" .string fun v d => { d with stderr := v }]
  blank := ⟨"", ""⟩

def toValue (d : Diagnostics) : Value :=
  .object [("stdout", .string d.stdout), ("stderr", .string d.stderr)]

end Diagnostics

namespace StageRecord

def layout : Layout StageRecord where
  name := "StageRecord"
  fields := [
    .required "stage" Stage.decoder fun v r => { r with stage := v },
    .required "command" .string fun v r => { r with command := v },
    .required "status" Status.decoder fun v r => { r with status := v },
    .required "elapsed_ms" .nat64 fun v r => { r with elapsedMs := v },
    .absent "diagnostics" Diagnostics.layout.decode fun v r => { r with diagnostics := v }]
  blank := ⟨.compile, "", .timedOut, 0, none⟩

def toValue (r : StageRecord) : Value :=
  .object ([
    ("stage", r.stage.toValue),
    ("command", .string r.command),
    ("status", r.status.toValue),
    ("elapsed_ms", .nat r.elapsedMs)] ++
    match r.diagnostics with
    | some d => [("diagnostics", d.toValue)]
    | none => [])

end StageRecord

end Conformance
