import Conformance.Fixture.Scratch
import Conformance.Outcome

namespace Conformance

namespace Diagnostics

-- The ends of two captured streams, unless both are empty.
def read? (host : Host) (t : Tree) (stdout stderr : Path) (limit : Nat) : Option Diagnostics :=
  let d : Diagnostics :=
    ⟨captureTail t host.cwd stdout limit, captureTail t host.cwd stderr limit⟩
  if d.stdout = "" ∧ d.stderr = "" then none else some d

end Diagnostics

namespace Stage

def stdoutPath (s : Stage) (dir : Path) : Path :=
  Path.join dir (s.name ++ ".stdout")

def stderrPath (s : Stage) (dir : Path) : Path :=
  Path.join dir (s.name ++ ".stderr")

-- The command of a stage, set up to run in a directory.
def prepare (s : Stage) (config : Config) (dir : Path) (i : Invocation) : Invocation :=
  let i := i.inDirectory dir
  if config.captureDiagnostics then
    (i.capturing (s.stdoutPath dir) (s.stderrPath dir)).withCaptureLimit
      (some config.captureLimitBytes)
  else i

-- What is noted of a command that was carried out.
def note (s : Stage) (host : Host) (config : Config) (dir : Path) (command : String) (t : Tree) :
    Except InvokeError InvocationResult → StageRecord
  | .ok result => {
      stage := s
      command := command
      status := result.status
      elapsedMs := result.elapsedMs
      diagnostics :=
        if config.captureDiagnostics then
          Diagnostics.read? host t (s.stdoutPath dir) (s.stderrPath dir)
            config.diagnosticLimitBytes
        else none }
  | .error e => {
      stage := s
      command := command
      status := .launchFailed ("invoke_error error=" ++ e.message)
      elapsedMs := 0
      diagnostics := none }

-- One stage in a directory, carried out and noted.
def run (s : Stage) (host : Host) (config : Config) (invoker : Invoker σ) (dir : Path)
    (i : Invocation) (w : World σ) : StageRecord × World σ :=
  let i := s.prepare config dir i
  let (result, w) := invoker i w
  (s.note host config dir i.command w.files result, w)

end Stage

namespace Outcome

-- The outcome of a command that did not exit by itself.
def ofFailure (s : Stage) : Status → Outcome
  | .timedOut => timedOut s
  | status => crashed s status.message

end Outcome

namespace Fixture

def compileCommand (f : Fixture) (host : Host) (config : Config) : Invocation :=
  let tools := config.toolchain
  let source := f.sourcePath config.fixtureRoot
  { program := tools.compiler
    args := tools.compilerArgs ++ [(Path.absolute? host.cwdPath source).getD source] ++
      if config.frontEndOnly then [tools.checkOnlyFlag] else []
    timeoutMs := config.compileTimeoutMs }

def assembleCommand (f : Fixture) (config : Config) : Invocation :=
  let tools := config.toolchain
  { program := tools.assembler
    args := ["-o", tools.binaryName] ++ tools.assemblerFlags ++
      [f.assemblyName tools.sourceExtension tools.assemblyExtension] }

def emulateCommand (config : Config) : Invocation :=
  let tools := config.toolchain
  { program := tools.emulator
    args := ["-L", tools.sysroot, tools.binaryName]
    timeoutMs := some config.emulateTimeoutMs }

-- Whether a fixture goes on behind the compiler.
def executes (f : Fixture) (config : Config) : Bool :=
  f.category.executes && !config.frontEndOnly

def emulatedOutcome : Status → Outcome
  | .exited code => .exited (normalExitCode code)
  | status => .ofFailure .emulate status

-- The stages in a directory, as many as the category and the results allow. A
-- program that could not be linked shows itself when it is emulated.
def drive (f : Fixture) (host : Host) (config : Config) (invoker : Invoker σ) (dir : Path)
    (w : World σ) : (Outcome × List StageRecord) × World σ :=
  let (compiled, w) := Stage.compile.run host config invoker dir (f.compileCommand host config) w
  match compiled.status with
  | .exited code =>
      if code ≠ config.codes.accepted then ((.rejectedAs code, [compiled]), w)
      else if f.executes config then
        let (assembled, w) :=
          Stage.assemble.run host config invoker dir (f.assembleCommand config) w
        let (emulated, w) := Stage.emulate.run host config invoker dir (emulateCommand config) w
        ((emulatedOutcome emulated.status, [compiled, assembled, emulated]), w)
      else ((.accepted, [compiled]), w)
  | status => ((.ofFailure .compile status, [compiled]), w)

-- All that can be seen of one fixture.
def run (f : Fixture) (host : Host) (config : Config) (invoker : Invoker σ) (w : World σ) :
    FixtureRun × World σ :=
  match Scratch.create host config f w.files with
  | (.error e, files) =>
      ({ fixtureId := f.name
         outcome := .crashed .compile ("scratch_dir_failed error=" ++ e.message)
         stages := []
         artifactDir := none }, { w with files := files })
  | (.ok scratch, files) =>
      let (seen, w) := f.drive host config invoker scratch.path { w with files := files }
      ({ fixtureId := f.name
         outcome := seen.1
         stages := seen.2
         artifactDir := scratch.keptPath? }, { w with files := scratch.close host w.files })

end Fixture

end Conformance
