import Conformance.Catalog.Builtin
import Conformance.CommandLine.Failure
import Conformance.CommandLine.Help
import Conformance.Log.Artifacts
import Conformance.Log.Check

namespace Conformance.CommandLine

-- What a command has before it: the files, and the two streams of a terminal.
structure Terminal (σ : Type) where
  world : World σ
  out : Console := .healthy
  err : Console := .healthy

namespace Terminal

def stdout (s : Terminal σ) : String :=
  s.out.written

def stderr (s : Terminal σ) : String :=
  s.err.written

-- A terminal on which nothing was written yet.
def opened (host : Host) (w : World σ) : Terminal σ where
  world := w
  out := { fault? := host.stdoutFault? }
  err := { fault? := host.stderrFault? }

end Terminal

-- Around a command: a host, a program runner, and a name for a run without one.
structure Station (σ : Type) where
  host : Host
  invoker : Invoker σ
  defaultRunId : String

abbrev Performing (σ : Type) := ExceptT Failure (StateM (Terminal σ))

-- What is said in pieces, of which the last ends a line.
def printLine (texts : List String) : Performing σ Unit :=
  fun s =>
    let (result, out) := s.out.putAll (texts.map .text)
    (result.mapError (.unheard "stdout"), { s with out := out })

def tellLine (texts : List String) : Performing σ Unit :=
  fun s =>
    let (result, err) := s.err.putAll (texts.map .text)
    (result.mapError (.unheard "stderr"), { s with err := err })

def orFail (wrap : ε → Failure) : Except ε α → Performing σ α
  | .ok a => pure a
  | .error e => throw (wrap e)

-- What is asked of the files without changing them.
def consult (wrap : IoError → Failure) (ask : Tree → Except IoError α) : Performing σ α := do
  let s ← get
  orFail wrap (ask s.world.files)

-- A change of the files. What was done before a failure stays.
def change (act : Tree → Except IoError α × Tree) : Performing σ α :=
  fun s =>
    let (result, files) := act s.world.files
    (result.mapError .io, { s with world := { s.world with files := files } })

-- A change that is done as a whole or not at all.
def wholly (act : Tree → Except IoError (α × Tree)) (t : Tree) : Except IoError α × Tree :=
  match act t with
  | .ok (a, t) => (.ok a, t)
  | .error e => (.error e, t)

-- A file opened for writing, with the directory it is in.
def openFile (host : Host) (path : Path) : Performing σ Place := do
  change fun t => t.makeParent host.cwd path
  change (wholly fun t => t.openForWriting host.cwd path)

def writeFile (host : Host) (path : Path) (text : String) : Performing σ Unit := do
  let place ← openFile host path
  change (host.fill place (Text.bytesOf text))

def loadConfig (host : Host) : Option Path → Performing σ Config
  | none => pure {}
  | some path => do
      let text ← consult .unreadable fun t => t.readText host.cwd path
      orFail .config (Config.ofJson text)

def loadCatalog (host : Host) : Option Path → Performing σ Catalog
  | none => pure Builtin.catalog
  | some path => do
      let text ← consult .unreadable fun t => t.readText host.cwd path
      orFail .catalog (Catalog.ofJson text)

-- The configuration with what the arguments say in its place.
def RunArguments.override (a : RunArguments) (c : Config) : Config :=
  let tools := c.toolchain
  { c with
    fixtureRoot := a.fixtureRoot.getD c.fixtureRoot
    toolchain := { tools with
      compiler := a.compiler.getD tools.compiler
      assembler := a.assembler.getD tools.assembler
      emulator := a.emulator.getD tools.emulator
      sysroot := a.sysroot.getD tools.sysroot }
    emulateTimeoutMs := match a.timeoutSecs with
      | some secs => min (secs * 1000) (Json.wordLimit - 1)
      | none => c.emulateTimeoutMs
    workDir := a.workDir <|> c.workDir
    frontEndOnly := c.frontEndOnly || a.frontEndOnly
    keepArtifacts := c.keepArtifacts || a.keepArtifacts }

-- The configuration that a run is made with.
def effectiveConfig (host : Host) (a : RunArguments) : Performing σ Config := do
  let c ← loadConfig host a.config
  let c ← orFail .config (a.override c).checked
  let here ← consult .io host.currentDirectory
  pure (c.resolve here)

-- A report in Markdown and its twin in JSON beside it, unless they collide.
def twinPath? (path : Path) : Option Path :=
  if (Path.extension? path).any fun e => Text.lowerAsciiText e = "json" then none
  else some (Path.withExtension path "json")

def reportPaths : Option Path → Performing σ (Option (Path × Path))
  | none => pure none
  | some path =>
      match twinPath? path with
      | some twin => pure (some (path, twin))
      | none => throw (.reportIsTwin path)

def runTitle : String := "WACC Verification Report"

def logSuite : String := "wacc"

-- A log that nothing can be written into is found out by what is written into it first.
def openBook (host : Host) (runId : String) (t : Tree) (place : Place) : Log.Book :=
  { Log.Book.opened logSuite runId with fault? := host.failure? place t }

-- A log when it is closed. What it holds goes into its file, as far as that takes anything.
def closeBook : Option Place → Option Log.Book → Tree → Tree
  | some place, some book, t =>
      if book.fault?.isSome || book.entries.isEmpty then t
      else t.writeAt place 0 (Text.bytesOf book.text)
  | _, _, t => t

-- The run itself. Its progress goes to the standard output, its log into a
-- file that is open.
def runSelected (station : Station σ) (c : Config) (catalog : Catalog) (a : RunArguments)
    (runId : String) (log : Option Place) : Performing σ CatalogRun := do
  let s ← get
  let start : RunState σ := {
    world := s.world
    reporter := { console := s.out }
    log := log.map (openBook station.host runId s.world.files) }
  let (result, done) := catalog.run ⟨station.host, c, station.invoker⟩ a.categories start
  set { s with
    world := { done.world with files := closeBook log done.log done.world.files }
    out := done.reporter.console }
  orFail .run result

def withArtifact (host : Host) (index : Log.ArtifactIndex) (path : Path) (kind : String) :
    Performing σ Log.ArtifactIndex :=
  consult .io fun t => index.withFile t host.cwd path kind

def indexLog (host : Host) (index : Log.ArtifactIndex) : Option Path →
    Performing σ Log.ArtifactIndex
  | none => pure index
  | some path => withArtifact host index path "log"

-- Both forms of a report are written before either is indexed.
def writeReport (host : Host) (done : CatalogRun) (index : Log.ArtifactIndex) :
    Option (Path × Path) → Performing σ Log.ArtifactIndex
  | none => pure index
  | some (path, twin) => do
      let report := done.report runTitle (host.clock 0)
      writeFile host path report.markdown
      writeFile host twin report.toJson
      let index ← withArtifact host index path "report_markdown"
      let index ← withArtifact host index twin "report_json"
      tellLine ["Report written to ", path, "\n"]
      pure index

def writeIndex (host : Host) (index : Log.ArtifactIndex) : Option Path → Performing σ Unit
  | none => pure ()
  | some path => writeFile host path index.toJson

-- The end of a run that has written all it had to.
def conclude (a : RunArguments) (done : CatalogRun) : Performing σ Unit := do
  a.artifactIndex.forM fun path => tellLine ["Artifact index written to ", path, "\n"]
  tellLine ["Passed ", toString done.summary.passed, "/", toString done.summary.total,
    " fixtures\n"]
  if done.summary.allPassed then pure () else throw (.fixturesFailed done.summary.failed)

-- All that is checked comes before anything is written, but for the choice of
-- fixtures, which is looked at when the log is open.
def run (station : Station σ) (a : RunArguments) : Performing σ Unit := do
  let host := station.host
  let c ← effectiveConfig host a
  let report ← reportPaths a.report
  let catalog ← loadCatalog host a.catalog
  let runId := a.runId.getD station.defaultRunId
  tellLine ["Running WACC fixtures from ", c.fixtureRoot, " with ", c.toolchain.compiler, "\n"]
  let log ← a.log.mapM (openFile host)
  let done ← runSelected station c catalog a runId log
  let index ← indexLog host { runId := runId, generated := host.clock 0 } a.log
  let index ← writeReport host done index report
  writeIndex host index a.artifactIndex
  conclude a done

-- An entry with what is special about it, between tabs.
def entryLine (category : Category) (entry : Entry) : String :=
  category.name ++ "\t" ++ entry.name ++
    (match entry.code with
      | some code => "\texit=" ++ toString code
      | none => "") ++
    (if entry.isDisabled then "\tdisabled" else "")

def list (station : Station σ) (catalog : Option Path) (categories : List Category) :
    Performing σ Unit := do
  let catalog ← loadCatalog station.host catalog
  (catalog.selectedSuites categories).forM fun suite =>
    suite.entries.forM fun entry => printLine [entryLine suite.category entry, "\n"]

-- A text for a file, or for the standard output.
def hand (station : Station σ) (what text : String) : Option Path → Performing σ Unit
  | none => printLine [text, "\n"]
  | some path => do
      writeFile station.host path text
      tellLine [what ++ " written to ", path, "\n"]

def validateLog (station : Station σ) (path : Path) : Performing σ Unit := do
  let text ← consult .io fun t => t.readText station.host.cwd path
  let (lines, violations) := Log.checkText text
  violations.forM fun v => tellLine (v.texts ++ ["\n"])
  if violations.isEmpty then tellLine [path, ": ", toString lines, " valid line(s)\n"]
  else throw (.logInvalid violations.length lines path)

-- Help is shown as far as it can be.
def showHelp (name : Option String) : Performing σ Unit :=
  modify fun s => { s with out := (s.out.put (.text (helpPage name))).2 }

def perform (station : Station σ) : Command → Performing σ Unit
  | .run a => run station a
  | .list catalog categories => list station catalog categories
  | .dumpConfig config output => do
      let c ← loadConfig station.host config
      hand station "Config" c.toJson output
  | .dumpCatalog output => hand station "Catalog" Builtin.catalog.toJson output
  | .validateLog path => validateLog station path
  | .help name => showHelp name

def usageStatus : Nat := 2

-- Last words, as far as they get out.
def Terminal.farewell (s : Terminal σ) (texts : List String) : Terminal σ :=
  { s with err := (s.err.putAll (texts.map .text)).2 }

-- A command from its beginning to its exit status. What is said of one that breaks off depends on
-- how the program was built, and is left out.
def finish (station : Station σ) (command : Command) (w : World σ) : Nat × Terminal σ :=
  match (perform station command).run (.opened station.host w) with
  | (.ok _, s) => (0, s)
  | (.error e, s) =>
      (e.status, if e.isUnheard then s else s.farewell ["Error: ", e.details, "\n"])

-- A whole command line: the exit status, and what is left.
def execute (station : Station σ) (args : List String) (w : World σ) : Nat × Terminal σ :=
  match Command.ofArguments args with
  | .error e =>
      (usageStatus, (Terminal.opened station.host w).farewell ["error: ", e.message, "\n"])
  | .ok command => finish station command w

end Conformance.CommandLine
