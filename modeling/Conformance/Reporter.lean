import Conformance.Console
import Conformance.Report

namespace Conformance

-- The progress of a run on a console, and the counts of the category that is
-- open.
structure Reporter where
  console : Console
  current : Option CategoryReport := none

namespace Reporter

def tell (r : Reporter) (outputs : List Output) : Except IoError Unit × Reporter :=
  let (result, console) := r.console.putAll outputs
  (result, { r with console := console })

def bannerPieces : List Output :=
  ["\n#################\n", "# Running tests #\n", "#################\n"].map .text

def banner (r : Reporter) : Except IoError Unit × Reporter :=
  r.tell bannerPieces

def headPieces (category : Category) : List Output :=
  ["\n----------\n", category.label, " tests\n", "----------\n"].map .text

-- A category that is still open is dropped.
def beginCategory (r : Reporter) (category : Category) (skipped : Nat) :
    Except IoError Unit × Reporter :=
  { r with current := some (.opened category skipped) }.tell (headPieces category)

-- A dot for each fixture, with the code that its program exited with.
def markTexts (v : Verdict) : List String :=
  "." :: match v.outcome.exitCode? with
    | some code => [toString code]
    | none => []

-- It is to be seen while the next fixture is run.
def markPieces (v : Verdict) : List Output :=
  (markTexts v).map .text ++ [.flush]

-- The verdict counts also when it cannot be told.
def record (r : Reporter) (v : Verdict) : Except IoError Unit × Reporter :=
  match r.current with
  | none => (.error (.other "verdict recorded outside of a category"), r)
  | some report => { r with current := some (report.counting v) }.tell (markPieces v)

def closingTexts (report : CategoryReport) : List String :=
  ["\nPassed ", toString report.passed, "/", toString report.total, " tests\n"] ++
    (if 0 < report.skipped then ["Skipped ", toString report.skipped, " disabled tests\n"]
      else []) ++
    if report.failing.isEmpty then []
    else "Failing tests:\n" :: report.failing.flatMap fun id => [id, "\n"]

def closingPieces (report : CategoryReport) : List Output :=
  (closingTexts report).map .text ++ [.flush]

-- The category is closed also when its counts cannot be told.
def finishCategory (r : Reporter) : Except IoError CategoryReport × Reporter :=
  match r.current with
  | none => (.error (.other "no category in progress"), r)
  | some report =>
      match { r with current := none }.tell (closingPieces report) with
      | (.ok _, r) => (.ok report, r)
      | (.error e, r) => (.error e, r)

end Reporter

end Conformance
