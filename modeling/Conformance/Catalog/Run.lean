import Conformance.Catalog.Basic
import Conformance.Fixture.Run
import Conformance.Log.Book
import Conformance.Reporter

namespace Conformance

open Json

-- All that a finished run of a catalog brought.
structure CatalogRun where
  mode : String
  categories : List CategoryReport
  summary : Summary
deriving DecidableEq, Repr

namespace CatalogRun

def toValue (r : CatalogRun) : Value :=
  .object [
    ("mode", .string r.mode),
    ("categories", .array (r.categories.map CategoryReport.toValue)),
    ("summary", r.summary.toValue)]

def report (r : CatalogRun) (title timestamp : String) : Report :=
  ⟨title, r.mode, timestamp, r.categories, r.summary⟩

end CatalogRun

-- Why a run did not come to its end.
inductive RunError where
  | nothingToRun
  | io (cause : IoError)
deriving DecidableEq, Repr

def RunError.message : RunError → String
  | .nothingToRun => "no fixtures selected"
  | .io cause => "io: " ++ cause.message

-- Where a run stands: the world, what was told, and what was logged, if
-- anything is.
structure RunState (σ : Type) where
  world : World σ
  reporter : Reporter
  log : Option Log.Book

-- What a run is made with.
structure Setting (σ : Type) where
  host : Host
  config : Config
  invoker : Invoker σ

-- A part of a run. It ends early only when the progress cannot be told or the log not written.
abbrev Running (σ : Type) := ExceptT IoError (StateM (RunState σ))

namespace Setting

variable {σ : Type}

def log (setting : Setting σ) (e : Log.Entry) : Running σ Unit :=
  fun s =>
    let (result, log) := Log.Book.emitIn setting.host.clock e s.log
    (result, { s with log := log })

def save : Running σ Unit :=
  fun s => (Log.Book.flushIn s.log, s)

def tell (act : Reporter → Except IoError α × Reporter) : Running σ α :=
  fun s =>
    let (result, reporter) := act s.reporter
    (result, { s with reporter := reporter })

def observe (setting : Setting σ) (f : Fixture) : Running σ FixtureRun :=
  fun s =>
    let (run, world) := f.run setting.host setting.config setting.invoker s.world
    (.ok run, { s with world := world })

-- A fixture is run and judged, and the verdict is told before it is logged.
def runFixture (setting : Setting σ) (f : Fixture) : Running σ Verdict := do
  let run ← setting.observe f
  let verdict := classify f run setting.config
  tell fun r => r.record verdict
  setting.log (.ofVerdict verdict)
  pure verdict

-- A suite is logged before it is told when it begins, and after when it ends.
def runSuite (setting : Setting σ) (suite : Suite) : Running σ (CategoryReport × List Verdict) := do
  setting.log (.categoryStart suite.category suite.fixtures.length suite.disabledCount)
  tell fun r => r.beginCategory suite.category suite.disabledCount
  let verdicts ← suite.fixtures.mapM setting.runFixture
  let report ← tell Reporter.finishCategory
  setting.log (.categoryEnd report)
  pure (report, verdicts)

def runSuites (setting : Setting σ) (categories : List Category) (suites : List Suite) :
    Running σ CatalogRun := do
  let fixtures := (suites.map fun suite => suite.fixtures.length).foldr (· + ·) 0
  setting.log (.runStart setting.config.mode categories fixtures)
  tell Reporter.banner
  let done ← suites.mapM setting.runSuite
  let summary := Summary.ofResults (done.flatMap Prod.snd)
  setting.log (.runEnd summary)
  save
  pure ⟨setting.config.mode, done.map Prod.fst, summary⟩

end Setting

namespace Catalog

-- The suites of the chosen categories in the order of a run.
def selectedSuites (catalog : Catalog) (chosen : List Category) : List Suite :=
  (Category.selection chosen).filterMap catalog.suite?

-- All enabled fixtures of the chosen categories, one after the other. Without
-- any, nothing is done.
def run (catalog : Catalog) (setting : Setting σ) (chosen : List Category) (s : RunState σ) :
    Except RunError CatalogRun × RunState σ :=
  let suites := catalog.selectedSuites chosen
  if suites.flatMap Suite.fixtures = [] then (.error .nothingToRun, s)
  else match (setting.runSuites (Category.selection chosen) suites).run s with
    | (.error e, s) => (.error (.io e), s)
    | (.ok done, s) => (.ok done, s)

end Catalog

end Conformance
