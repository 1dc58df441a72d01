import Conformance.Category
import Conformance.Path

namespace Conformance.CommandLine

-- What a run is asked for. What is left out comes from the configuration.
structure RunArguments where
  config : Option Path := none
  catalog : Option Path := none
  fixtureRoot : Option Path := none
  compiler : Option Path := none
  assembler : Option Path := none
  emulator : Option Path := none
  sysroot : Option Path := none
  timeoutSecs : Option Nat := none
  categories : List Category := []
  frontEndOnly : Bool := false
  keepArtifacts : Bool := false
  workDir : Option Path := none
  log : Option Path := none
  report : Option Path := none
  artifactIndex : Option Path := none
  runId : Option String := none
deriving DecidableEq, Repr

inductive Command where
  | run (arguments : RunArguments)
  | list (catalog : Option Path) (categories : List Category)
  | dumpConfig (config output : Option Path)
  | dumpCatalog (output : Option Path)
  | validateLog (log : Path)
  -- what there is, or what one command does
  | help (name : Option String)
deriving DecidableEq, Repr

-- What can be wrong with a command line.
inductive UsageError where
  | noCommand
  | unknownCommand (name : String)
  | unexpected (arg : String)
  | withoutValue (option : String)
  | withValue (option : String)
  | repeated (option : String)
  | missing (option : String)
  | invalidValue (option value : String)
deriving DecidableEq, Repr

def UsageError.message : UsageError → String
  | .noCommand => "a command is needed: run, list, dump-config, dump-catalog or validate-log"
  | .unknownCommand name => "unknown command " ++ name
  | .unexpected arg => "unexpected argument " ++ arg
  | .withoutValue option => "a value is needed for --" ++ option
  | .withValue option => "no value can be given to --" ++ option
  | .repeated option => "--" ++ option ++ " cannot be given more than once"
  | .missing option => "--" ++ option ++ " is needed"
  | .invalidValue option value => "invalid value " ++ value ++ " for --" ++ option

-- What an option takes: nothing, one value, or a value each time it is given.
inductive Arity where
  | flag
  | single
  | many
deriving DecidableEq, Repr

-- An option that a command has, with the name of its value and with what it is for.
structure Offer where
  name : String
  arity : Arity
  value : String
  about : String
deriving DecidableEq, Repr

-- The options of a command.
abbrev Options := List Offer

-- The options that were given, in order, with their values.
abbrev Given := List (String × String)

-- An option's name and the value that is joined to it.
def splitOption (arg : String) : String × Option String :=
  let cs := arg.toList.drop 2
  let name := cs.takeWhile (· ≠ '=')
  match cs.drop name.length with
  | [] => (String.ofList name, none)
  | _ :: value => (String.ofList name, some (String.ofList value))

-- A value that stands for itself must not look like an option.
def looksLikeOption (arg : String) : Bool :=
  match arg.toList with
  | '-' :: _ :: _ => true
  | _ => false

-- Only the first letter counts where short options stand together.
def asksForHelp (arg : String) : Bool :=
  arg = "--help" || arg.startsWith "-h"

def withOption (name value : String) (more : Except UsageError (Given × Bool)) :
    Except UsageError (Given × Bool) := do
  let (given, helps) ← more
  .ok ((name, value) :: given, helps)

-- The options up to the end, or up to one that asks for help. Nothing is read behind that.
def readGiven (options : Options) : List String → Except UsageError (Given × Bool)
  | [] => .ok ([], false)
  | arg :: rest =>
      if asksForHelp arg then .ok ([], true)
      else if arg = "--" then
        match rest with
        | [] => .ok ([], false)
        | next :: _ => .error (.unexpected next)
      else if !arg.startsWith "--" then .error (.unexpected arg)
      else
        let (name, joined) := splitOption arg
        match (options.find? fun offer => offer.name = name).map Offer.arity, joined, rest with
        | none, _, _ => .error (.unexpected arg)
        | some .flag, some _, _ => .error (.withValue name)
        | some .flag, none, rest => withOption name "" (readGiven options rest)
        | some _, some value, rest => withOption name value (readGiven options rest)
        | some _, none, [] => .error (.withoutValue name)
        | some _, none, value :: rest =>
            if looksLikeOption value then .error (.withoutValue name)
            else withOption name value (readGiven options rest)

namespace Given

def values (g : Given) (name : String) : List String :=
  (g.filter fun entry => entry.1 = name).map Prod.snd

def flag (g : Given) (name : String) : Bool :=
  !(g.values name).isEmpty

def text? (g : Given) (name : String) : Option String :=
  (g.values name).head?

def path? (g : Given) (name : String) : Except UsageError (Option Path) :=
  match g.text? name with
  | some "" => .error (.withoutValue name)
  | value => .ok value

-- A number of 64 bits in decimal digits, with a plus sign or without.
def readNumber? (value : String) : Option Nat :=
  let digits := match value.toList with
    | '+' :: rest => rest
    | cs => cs
  let n := digits.foldl (fun (n : Nat) (c : Char) => 10 * n + (c.toNat - 48)) 0
  if digits ≠ [] ∧ digits.all Char.isDigit ∧ n < Json.wordLimit then some n else none

def number? (g : Given) (name : String) : Except UsageError (Option Nat) :=
  match g.text? name with
  | none => .ok none
  | some value =>
      match readNumber? value with
      | some n => .ok (some n)
      | none => .error (.invalidValue name value)

def categories (g : Given) : Except UsageError (List Category) :=
  (g.values "category").mapM fun value =>
    match Category.ofLooseName? value with
    | some c => .ok c
    | none => .error (.invalidValue "category" value)

end Given

-- Only options with many values may be given again.
def checkOnce (options : Options) (g : Given) : Except UsageError Unit :=
  match options.find? fun offer => offer.arity ≠ .many && 1 < (g.values offer.name).length with
  | some offer => .error (.repeated offer.name)
  | none => .ok ()

def runOf (g : Given) : Except UsageError Command := do
  let config ← g.path? "config"
  let catalog ← g.path? "catalog"
  let fixtureRoot ← g.path? "fixture-root"
  let compiler ← g.path? "compiler"
  let assembler ← g.path? "assembler"
  let emulator ← g.path? "emulator"
  let sysroot ← g.path? "sysroot"
  let timeoutSecs ← g.number? "timeout-secs"
  let categories ← g.categories
  let workDir ← g.path? "work-dir"
  let log ← g.path? "log"
  let report ← g.path? "report"
  let artifactIndex ← g.path? "artifact-index"
  .ok (.run {
    config, catalog, fixtureRoot, compiler, assembler, emulator, sysroot, timeoutSecs, categories
    frontEndOnly := g.flag "front-end-only"
    keepArtifacts := g.flag "keep-artifacts"
    workDir, log, report, artifactIndex
    runId := g.text? "run-id" })

def listOf (g : Given) : Except UsageError Command := do
  let catalog ← g.path? "catalog"
  let categories ← g.categories
  .ok (.list catalog categories)

def dumpConfigOf (g : Given) : Except UsageError Command := do
  let config ← g.path? "config"
  let output ← g.path? "output"
  .ok (.dumpConfig config output)

def dumpCatalogOf (g : Given) : Except UsageError Command := do
  let output ← g.path? "output"
  .ok (.dumpCatalog output)

def validateLogOf (g : Given) : Except UsageError Command := do
  match ← g.path? "log" with
  | some log => .ok (.validateLog log)
  | none => .error (.missing "log")

-- What goes by the name of a command.
structure CommandForm where
  name : String
  about : String
  options : Options
  read : Given → Except UsageError Command

def catalogOffer : Offer :=
  ⟨"catalog", .single, "CATALOG", "Fixture catalog JSON (built-in suite if omitted)"⟩

def outputOffer : Offer :=
  ⟨"output", .single, "OUTPUT", "Output path (if omitted, prints to stdout)"⟩

def commands : List CommandForm := [
  { name := "run"
    about := "Run the fixture suite against a compiler"
    options := [
      ⟨"config", .single, "CONFIG", "JSON config file; CLI flags override its values"⟩,
      catalogOffer,
      ⟨"fixture-root", .single, "FIXTURE_ROOT",
        "Directory the catalog's path prefixes are relative to"⟩,
      ⟨"compiler", .single, "COMPILER", "Compiler under test"⟩,
      ⟨"assembler", .single, "ASSEMBLER", "Cross assembler/linker"⟩,
      ⟨"emulator", .single, "EMULATOR", "Instruction-set emulator"⟩,
      ⟨"sysroot", .single, "SYSROOT", "Target sysroot handed to the emulator"⟩,
      ⟨"timeout-secs", .single, "TIMEOUT_SECS", "Emulation time bound in seconds"⟩,
      ⟨"category", .many, "CATEGORIES",
        "Only run these categories (valid, syntax, semantic). Repeatable"⟩,
      ⟨"front-end-only", .flag, "", "Stop after the compile stage and pass the check-only flag"⟩,
      ⟨"keep-artifacts", .flag, "", "Keep per-fixture scratch directories"⟩,
      ⟨"work-dir", .single, "WORK_DIR", "Parent directory for per-fixture scratch directories"⟩,
      ⟨"log", .single, "LOG", "Structured JSONL verdict log path"⟩,
      ⟨"report", .single, "REPORT", "Output report path (markdown); a `.json` twin is " ++
        "written beside it, so this path must not itself end in `.json`"⟩,
      ⟨"artifact-index", .single, "ARTIFACT_INDEX",
        "Artifact index JSON path covering the log and reports"⟩,
      ⟨"run-id", .single, "RUN_ID", "Run identifier used in trace ids"⟩]
    read := runOf },
  { name := "list"
    about := "List catalog fixtures and their expectations"
    options := [
      catalogOffer,
      ⟨"category", .many, "CATEGORIES", "Only list these categories. Repeatable"⟩]
    read := listOf },
  { name := "dump-config"
    about := "Write the effective configuration (defaults, or `--config` checked) as JSON"
    options := [
      ⟨"config", .single, "CONFIG",
        "JSON config file to validate and re-emit with defaults filled in"⟩,
      outputOffer]
    read := dumpConfigOf },
  { name := "dump-catalog"
    about := "Write the built-in catalog as JSON"
    options := [outputOffer]
    read := dumpCatalogOf },
  { name := "validate-log"
    about := "Validate a structured JSONL verdict log"
    options := [⟨"log", .single, "LOG", "Structured JSONL log path"⟩]
    read := validateLogOf }]

def helpName : String := "help"

def commandNames : List String :=
  commands.map CommandForm.name ++ [helpName]

namespace Command

-- Where help is asked for, what stands before must be right as far as it goes.
def ofForm (form : CommandForm) (args : List String) : Except UsageError Command := do
  let (given, helps) ← readGiven form.options args
  checkOnce form.options given
  match helps, form.read given with
  | true, .ok _ => .ok (.help (some form.name))
  | true, .error (.missing _) => .ok (.help (some form.name))
  | _, read => read

def helpOn : List String → Except UsageError Command
  | [] => .ok (.help none)
  | [name] =>
      if commandNames.contains name then .ok (.help (some name)) else .error (.unknownCommand name)
  | _ :: name :: _ => .error (.unknownCommand name)

def ofArguments : List String → Except UsageError Command
  | [] => .error .noCommand
  | name :: args =>
      if asksForHelp name then .ok (.help none)
      else if name = helpName then helpOn args
      else match commands.find? fun form => form.name = name with
        | some form => ofForm form args
        | none => .error (.unknownCommand name)

end Command

end Conformance.CommandLine
