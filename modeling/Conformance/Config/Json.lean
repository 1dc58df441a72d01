import Conformance.Config.Basic
import Conformance.Json.Printer

namespace Conformance

open Json

-- Every field has a default, so an empty object is a whole configuration.
def CompileCodes.layout : Layout CompileCodes where
  name := "ExitCodes"
  fields := [
    .defaulted "accepted" .int32 fun v c => { c with accepted := v },
    .defaulted "syntax_rejected" .int32 fun v c => { c with syntaxRejected := v },
    .defaulted "semantic_rejected" .int32 fun v c => { c with semanticRejected := v }]
  blank := {}

def CompileCodes.toValue (codes : CompileCodes) : Value :=
  .object [
    ("accepted", .int codes.accepted),
    ("syntax_rejected", .int codes.syntaxRejected),
    ("semantic_rejected", .int codes.semanticRejected)]

def strings (texts : List String) : Value :=
  .array (texts.map .string)

def optional (f : α → Value) : Option α → Value
  | some a => f a
  | none => .null

namespace Toolchain

def layout : Layout Toolchain where
  name := "Toolchain"
  fields := [
    .defaulted "compiler" .path fun v t => { t with compiler := v },
    .defaulted "compiler_args" (.list .string) fun v t => { t with compilerArgs := v },
    .defaulted "check_only_flag" .string fun v t => { t with checkOnlyFlag := v },
    .defaulted "assembler" .path fun v t => { t with assembler := v },
    .defaulted "assembler_flags" (.list .string) fun v t => { t with assemblerFlags := v },
    .defaulted "emulator" .path fun v t => { t with emulator := v },
    .defaulted "sysroot" .path fun v t => { t with sysroot := v },
    .defaulted "binary_name" .string fun v t => { t with binaryName := v },
    .defaulted "source_extension" .string fun v t => { t with sourceExtension := v },
    .defaulted "assembly_extension" .string fun v t => { t with assemblyExtension := v }]
  blank := {}

def toValue (t : Toolchain) : Value :=
  .object [
    ("compiler", .string t.compiler),
    ("compiler_args", strings t.compilerArgs),
    ("check_only_flag", .string t.checkOnlyFlag),
    ("assembler", .string t.assembler),
    ("assembler_flags", strings t.assemblerFlags),
    ("emulator", .string t.emulator),
    ("sysroot", .string t.sysroot),
    ("binary_name", .string t.binaryName),
    ("source_extension", .string t.sourceExtension),
    ("assembly_extension", .string t.assemblyExtension)]

end Toolchain

namespace Config

def layout : Layout Config where
  name := "HarnessConfig"
  fields := [
    .defaulted "fixture_root" .path fun v c => { c with fixtureRoot := v },
    .defaulted "toolchain" Toolchain.layout.decode fun v c => { c with toolchain := v },
    .defaulted "codes" CompileCodes.layout.decode fun v c => { c with codes := v },
    .defaulted "emulate_timeout_ms" .nat64 fun v c => { c with emulateTimeoutMs := v },
    .defaulted "compile_timeout_ms" (.option .nat64) fun v c => { c with compileTimeoutMs := v },
    .defaulted "default_exit_code" .int32 fun v c => { c with defaultExitCode := v },
    .defaulted "front_end_only" .bool fun v c => { c with frontEndOnly := v },
    .defaulted "keep_artifacts" .bool fun v c => { c with keepArtifacts := v },
    .defaulted "work_dir" (.option .path) fun v c => { c with workDir := v },
    .defaulted "capture_diagnostics" .bool fun v c => { c with captureDiagnostics := v },
    .defaulted "diagnostic_limit_bytes" .size fun v c => { c with diagnosticLimitBytes := v },
    .defaulted "capture_limit_bytes" .nat64 fun v c => { c with captureLimitBytes := v }]
  blank := {}

def toValue (c : Config) : Value :=
  .object [
    ("fixture_root", .string c.fixtureRoot),
    ("toolchain", c.toolchain.toValue),
    ("codes", c.codes.toValue),
    ("emulate_timeout_ms", .nat c.emulateTimeoutMs),
    ("compile_timeout_ms", optional .nat c.compileTimeoutMs),
    ("default_exit_code", .int c.defaultExitCode),
    ("front_end_only", .bool c.frontEndOnly),
    ("keep_artifacts", .bool c.keepArtifacts),
    ("work_dir", optional .string c.workDir),
    ("capture_diagnostics", .bool c.captureDiagnostics),
    ("diagnostic_limit_bytes", .nat c.diagnosticLimitBytes),
    ("capture_limit_bytes", .nat c.captureLimitBytes)]

def toJson (c : Config) : String :=
  c.toValue.pretty

end Config

-- Why a text is no configuration.
inductive ConfigError where
  | json (e : DecodeError)
  | flaw (f : ConfigFlaw)

def ConfigError.message : ConfigError → String
  | .json e => "invalid config json: " ++ e.message
  | .flaw f => f.message

def Config.checked (c : Config) : Except ConfigError Config :=
  match c.flaw? with
  | some flaw => .error (.flaw flaw)
  | none => .ok c

-- A configuration is accepted only without a flaw.
def Config.ofJson (text : String) : Except ConfigError Config :=
  match decodeText Config.layout.decode text with
  | .error e => .error (.json e)
  | .ok c => c.checked

end Conformance
