import Conformance.Path
import Conformance.Stage

namespace Conformance

open Json

-- What a fixture showed in the end.
inductive Outcome where
  -- the compiler returned the accepted code and nothing further ran
  | accepted
  -- the compiler returned another code
  | rejectedAs (code : Int)
  -- the program ran and exited with this code, below 256
  | exited (code : Nat)
  | timedOut (stage : Stage)
  -- a stage could not run, or did not end by itself
  | crashed (stage : Stage) (detail : String)
deriving DecidableEq, Repr

namespace Outcome

def message : Outcome → String
  | accepted => "accepted"
  | rejectedAs code => "compiler exit " ++ toString code
  | exited code => "program exit " ++ toString code
  | timedOut stage => stage.name ++ " timed out"
  | crashed stage detail => stage.name ++ " crashed: " ++ detail

def exitCode? : Outcome → Option Nat
  | exited code => some code
  | _ => none

def decoder : Decoder Outcome :=
  .tagged "RunOutcome" "kind" [
    ("accepted", .bare accepted),
    ("rejected_as", .fields {
      name := "RejectedAs"
      fields := [.required "code" .int32 fun v _ => rejectedAs v]
      blank := rejectedAs 0 }),
    ("exited", .fields {
      name := "Exited"
      fields := [.required "code" .nat8 fun v _ => exited v]
      blank := exited 0 }),
    ("timed_out", .fields {
      name := "TimedOut"
      fields := [.required "stage" Stage.decoder fun v _ => timedOut v]
      blank := timedOut .compile }),
    ("crashed", .fields {
      name := "Crashed"
      fields := [
        .required "stage" Stage.decoder fun v o => match o with
          | crashed _ detail => crashed v detail
          | o => o,
        .required "detail" .string fun v o => match o with
          | crashed stage _ => crashed stage v
          | o => o]
      blank := crashed .compile "" })]

def toValue : Outcome → Value
  | accepted => .object [("kind", .string "accepted")]
  | rejectedAs code => .object [("kind", .string "rejected_as"), ("code", .int code)]
  | exited code => .object [("kind", .string "exited"), ("code", .nat code)]
  | timedOut stage => .object [("kind", .string "timed_out"), ("stage", stage.toValue)]
  | crashed stage detail => .object [
      ("kind", .string "crashed"), ("stage", stage.toValue), ("detail", .string detail)]

end Outcome

-- All that was seen while one fixture ran.
structure FixtureRun where
  fixtureId : String
  outcome : Outcome
  stages : List StageRecord
  -- the scratch directory, when it was kept
  artifactDir : Option Path
deriving DecidableEq, Repr

namespace FixtureRun

def stage? (run : FixtureRun) (stage : Stage) : Option StageRecord :=
  run.stages.find? fun r => r.stage = stage

def elapsedMs (run : FixtureRun) : Nat :=
  (run.stages.map StageRecord.elapsedMs).foldr (· + ·) 0

def layout : Layout FixtureRun where
  name := "FixtureRun"
  fields := [
    .required "fixture_id" .string fun v r => { r with fixtureId := v },
    .required "outcome" Outcome.decoder fun v r => { r with outcome := v },
    .required "stages" (.list StageRecord.layout.decode) fun v r => { r with stages := v },
    .absent "artifact_dir" .path fun v r => { r with artifactDir := v }]
  blank := ⟨"", .accepted, [], none⟩

def toValue (r : FixtureRun) : Value :=
  .object ([
    ("fixture_id", .string r.fixtureId),
    ("outcome", r.outcome.toValue),
    ("stages", .array (r.stages.map StageRecord.toValue))] ++
    match r.artifactDir with
    | some dir => [("artifact_dir", .string dir)]
    | none => [])

end FixtureRun

end Conformance
