import Conformance.Json.Printer
import Conformance.Verdict

namespace Conformance

open Json

-- The run of one category, counted.
structure CategoryReport where
  category : Category
  total : Nat
  passed : Nat
  -- disabled entries that were not run
  skipped : Nat
  failing : List String
deriving DecidableEq, Repr

namespace CategoryReport

def opened (category : Category) (skipped : Nat) : CategoryReport :=
  ⟨category, 0, 0, skipped, []⟩

def failed (r : CategoryReport) : Nat :=
  r.failing.length

-- The report with one more verdict counted.
def counting (r : CategoryReport) (v : Verdict) : CategoryReport :=
  if v.passed then { r with total := r.total + 1, passed := r.passed + 1 }
  else { r with total := r.total + 1, failing := r.failing ++ [v.fixtureId] }

def layout : Layout CategoryReport where
  name := "CategoryReport"
  fields := [
    .required "category" Category.decoder fun v r => { r with category := v },
    .required "total" .size fun v r => { r with total := v },
    .required "passed" .size fun v r => { r with passed := v },
    .required "skipped" .size fun v r => { r with skipped := v },
    .required "failing" (.list .string) fun v r => { r with failing := v }]
  blank := ⟨.valid, 0, 0, 0, []⟩

def toValue (r : CategoryReport) : Value :=
  .object [
    ("category", r.category.toValue),
    ("total", .nat r.total),
    ("passed", .nat r.passed),
    ("skipped", .nat r.skipped),
    ("failing", .array (r.failing.map .string))]

end CategoryReport

-- A whole run, ready to be written out.
structure Report where
  title : String
  mode : String
  timestamp : String
  categories : List CategoryReport
  summary : Summary
deriving DecidableEq, Repr

namespace Report

def row (cells : List String) : String :=
  "| " ++ String.intercalate " | " cells ++ " |\n"

def heading (r : Report) : List String := [
  "# " ++ r.title ++ "\n\n",
  "- Mode: " ++ r.mode ++ "\n",
  "- Timestamp: " ++ r.timestamp ++ "\n",
  "- Total: " ++ toString r.summary.total ++ "\n",
  "- Passed: " ++ toString r.summary.passed ++ "\n",
  "- Failed: " ++ toString r.summary.failed ++ "\n\n"]

def categoryRow (c : CategoryReport) : String :=
  row [c.category.label, toString c.passed, toString c.total, toString c.skipped]

def categoryTable (r : Report) : List String :=
  ["| Category | Passed | Total | Skipped |\n", "|----------|--------|-------|---------|\n"] ++
    r.categories.map categoryRow

def failureRow (v : Verdict) : String :=
  row [v.fixtureId, v.category.name, v.expected, v.outcome.message]

def failureTable (failures : List Verdict) : List String :=
  ["\n## Failures\n\n", "| Fixture | Category | Expected | Observed |\n",
    "|---------|----------|----------|----------|\n"] ++ failures.map failureRow

-- The captured streams of a stage one after the other, ended by a line end
-- when the second does not end with one.
def outputBlock (record : StageRecord) (d : Diagnostics) : List String :=
  ["\n`" ++ record.command ++ "` (" ++ record.status.message ++ ")\n\n", "```\n",
    d.stdout, d.stderr] ++
    (if d.stderr.toList.getLast? = some '\n' then [] else ["\n"]) ++ ["```\n"]

def outputBlocks (v : Verdict) : List String :=
  let blocks := v.stages.filterMap fun record =>
    record.diagnostics.map fun d => outputBlock record d
  if blocks.isEmpty then [] else ("\n### " ++ v.fixtureId ++ "\n") :: blocks.flatten

-- The pieces of the Markdown form in order.
def markdownPieces (r : Report) : List String :=
  let failures := r.summary.failures
  r.heading ++ r.categoryTable ++
    if failures.isEmpty then []
    else failureTable failures ++ failures.flatMap outputBlocks

def markdown (r : Report) : String :=
  String.join r.markdownPieces

def layout : Layout Report where
  name := "ConformanceReport"
  fields := [
    .required "title" .string fun v r => { r with title := v },
    .required "mode" .string fun v r => { r with mode := v },
    .required "timestamp" .string fun v r => { r with timestamp := v },
    .required "categories" (.list CategoryReport.layout.decode) fun v r =>
      { r with categories := v },
    .required "summary" Summary.layout.decode fun v r => { r with summary := v }]
  blank := ⟨"", "", "", [], ⟨0, 0, 0, []⟩⟩

def toValue (r : Report) : Value :=
  .object [
    ("title", .string r.title),
    ("mode", .string r.mode),
    ("timestamp", .string r.timestamp),
    ("categories", .array (r.categories.map CategoryReport.toValue)),
    ("summary", r.summary.toValue)]

def toJson (r : Report) : String :=
  r.toValue.pretty

end Report

end Conformance
