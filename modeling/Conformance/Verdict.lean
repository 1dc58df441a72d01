import Conformance.Expectation

namespace Conformance

open Json

-- The judgement on one fixture.
structure Verdict where
  fixtureId : String
  category : Category
  passed : Bool
  expected : String
  outcome : Outcome
  elapsedMs : Nat
  -- kept only for a fixture that failed
  stages : List StageRecord
deriving DecidableEq, Repr

-- The judgement on a run.
def classify (f : Fixture) (run : FixtureRun) (config : Config) : Verdict :=
  let expectation := Expectation.ofFixture f config
  let passed := expectation.isMetBy run.outcome
  { fixtureId := f.name
    category := f.category
    passed := passed
    expected := expectation.message
    outcome := run.outcome
    elapsedMs := run.elapsedMs
    stages := if passed then [] else run.stages }

namespace Verdict

def layout : Layout Verdict where
  name := "Verdict"
  fields := [
    .required "fixture_id" .string fun v r => { r with fixtureId := v },
    .required "category" Category.decoder fun v r => { r with category := v },
    .required "passed" .bool fun v r => { r with passed := v },
    .required "expected" .string fun v r => { r with expected := v },
    .required "outcome" Outcome.decoder fun v r => { r with outcome := v },
    .required "elapsed_ms" .nat64 fun v r => { r with elapsedMs := v },
    .defaulted "stages" (.list StageRecord.layout.decode) fun v r => { r with stages := v }]
  blank := ⟨"", .valid, false, "", .accepted, 0, []⟩

def toValue (v : Verdict) : Value :=
  .object ([
    ("fixture_id", .string v.fixtureId),
    ("category", v.category.toValue),
    ("passed", .bool v.passed),
    ("expected", .string v.expected),
    ("outcome", v.outcome.toValue),
    ("elapsed_ms", .nat v.elapsedMs)] ++
    if v.stages.isEmpty then [] else [("stages", .array (v.stages.map StageRecord.toValue))])

end Verdict

-- All verdicts of a run, counted.
structure Summary where
  total : Nat
  passed : Nat
  failed : Nat
  results : List Verdict
deriving DecidableEq, Repr

namespace Summary

def ofResults (results : List Verdict) : Summary :=
  let passed := (results.filter Verdict.passed).length
  ⟨results.length, passed, results.length - passed, results⟩

def allPassed (s : Summary) : Bool :=
  s.failed = 0

-- The verdicts that failed, in the order of the run.
def failures (s : Summary) : List Verdict :=
  s.results.filter fun v => !v.passed

def failingIds (s : Summary) : List String :=
  s.failures.map Verdict.fixtureId

def layout : Layout Summary where
  name := "VerificationSummary"
  fields := [
    .required "total" .size fun v s => { s with total := v },
    .required "passed" .size fun v s => { s with passed := v },
    .required "failed" .size fun v s => { s with failed := v },
    .required "results" (.list Verdict.layout.decode) fun v s => { s with results := v }]
  blank := ⟨0, 0, 0, []⟩

def toValue (s : Summary) : Value :=
  .object [
    ("total", .nat s.total),
    ("passed", .nat s.passed),
    ("failed", .nat s.failed),
    ("results", .array (s.results.map Verdict.toValue))]

end Summary

end Conformance
