import Conformance.Category
import Conformance.Path

namespace Conformance

-- The compiler's exit code for each category.
structure CompileCodes where
  accepted : Int := 0
  syntaxRejected : Int := 100
  semanticRejected : Int := 200
deriving DecidableEq, Repr

def CompileCodes.expected (codes : CompileCodes) : Category → Int
  | .valid => codes.accepted
  | .syntaxInvalid => codes.syntaxRejected
  | .semanticInvalid => codes.semanticRejected

-- The external tools of a run and what they are called with.
structure Toolchain where
  compiler : Path := "./compile"
  -- placed before the source
  compilerArgs : List String := []
  -- placed behind the source when only the front end runs
  checkOnlyFlag : String := "-OC"
  assembler : Path := "arm-linux-gnueabi-gcc"
  assemblerFlags : List String := ["-mcpu=arm1176jzf-s", "-mtune=arm1176jzf-s"]
  emulator : Path := "qemu-arm"
  sysroot : Path := "/usr/arm-linux-gnueabi/"
  -- the linked program inside a scratch directory
  binaryName : String := "execTest"
  sourceExtension : String := "wacc"
  assemblyExtension : String := "s"
deriving DecidableEq, Repr

structure Config where
  fixtureRoot : Path := "test"
  toolchain : Toolchain := {}
  codes : CompileCodes := {}
  emulateTimeoutMs : Nat := 60000
  compileTimeoutMs : Option Nat := none
  -- for valid fixtures without a code of their own
  defaultExitCode : Int := 0
  frontEndOnly : Bool := false
  keepArtifacts : Bool := false
  -- the parent of the scratch directories
  workDir : Option Path := none
  captureDiagnostics : Bool := true
  -- how much of the end of a captured stream is kept
  diagnosticLimitBytes : Nat := 4096
  -- how large a captured stream may grow
  captureLimitBytes : Nat := 16777216
deriving DecidableEq, Repr

-- What can be wrong with a configuration.
inductive ConfigFlaw where
  | zeroTimeout (field : String)
  | zeroLimit (field : String)
  | overlappingCodes (codes : CompileCodes)
  | emptyTool (field : String)
deriving DecidableEq, Repr

def ConfigFlaw.message : ConfigFlaw → String
  | .zeroTimeout field => field ++ " must be greater than zero"
  | .zeroLimit field => field ++ " must be greater than zero"
  | .overlappingCodes codes =>
      "compile codes must be distinct (accepted=" ++ toString codes.accepted ++
        ", syntax=" ++ toString codes.syntaxRejected ++
        ", semantic=" ++ toString codes.semanticRejected ++ ")"
  | .emptyTool field => "toolchain." ++ field ++ " must not be empty"

namespace Config

-- The first flaw, in a fixed order.
def flaw? (config : Config) : Option ConfigFlaw :=
  let codes := config.codes
  let tools := config.toolchain
  if config.emulateTimeoutMs = 0 then some (.zeroTimeout "emulate_timeout_ms")
  else if config.compileTimeoutMs = some 0 then some (.zeroTimeout "compile_timeout_ms")
  else if config.captureLimitBytes = 0 then some (.zeroLimit "capture_limit_bytes")
  else if codes.accepted = codes.syntaxRejected ∨ codes.accepted = codes.semanticRejected ∨
      codes.syntaxRejected = codes.semanticRejected then some (.overlappingCodes codes)
  else if tools.compiler = "" then some (.emptyTool "compiler")
  else if tools.assembler = "" then some (.emptyTool "assembler")
  else if tools.emulator = "" then some (.emptyTool "emulator")
  else if Text.isBlankText tools.binaryName then some (.emptyTool "binary_name")
  else none

-- A relative path of more than one part is fixed to a directory; a bare name
-- stays, to be looked up among the installed programs.
def anchored (base tool : Path) : Path :=
  if Path.isRelative tool ∧ 1 < (Path.components tool).length then Path.join base tool else tool

def rooted (base p : Path) : Path :=
  if Path.isRelative p then Path.join base p else p

-- The configuration with its relative paths fixed to a directory.
def resolve (config : Config) (base : Path) : Config :=
  let tools := config.toolchain
  { config with
    toolchain := { tools with
      compiler := anchored base tools.compiler
      assembler := anchored base tools.assembler
      emulator := anchored base tools.emulator }
    fixtureRoot := rooted base config.fixtureRoot
    workDir := config.workDir.map (rooted base) }

def mode (config : Config) : String :=
  if config.frontEndOnly then "front-end-only" else "full"

end Config

end Conformance
