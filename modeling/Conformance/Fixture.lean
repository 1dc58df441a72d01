import Conformance.Category
import Conformance.Path

namespace Conformance

-- The code that a parent sees for the code a program exits with: the residue
-- modulo 256, also for negative codes.
def normalExitCode (code : Int) : Nat :=
  (code % 256).toNat

theorem normalExitCode_lt (code : Int) : normalExitCode code < 256 := by
  unfold normalExitCode; omega

theorem normalExitCode_eq_iff (a b : Int) :
    normalExitCode a = normalExitCode b ↔ a % 256 = b % 256 := by
  unfold normalExitCode; omega

open Json

-- One test case of a suite.
structure Fixture where
  name : String
  category : Category
  -- relative to the root of the fixtures
  source : Path
  -- the code the program is expected to exit with, as it is written
  expectedExit : Option Int
deriving DecidableEq, Repr

namespace Fixture

def expectedExitCode (f : Fixture) : Option Nat :=
  f.expectedExit.map normalExitCode

-- The name of the assembly file: the source suffix is replaced, and a name
-- without that suffix, or with nothing before it, gets one more suffix.
def assemblyName (f : Fixture) (sourceExtension assemblyExtension : String) : String :=
  let base := (Path.fileName? f.source).getD f.name
  let stem := match Text.dropEnding? base ("." ++ sourceExtension) with
    | some stem => if sourceExtension ≠ "" ∧ stem ≠ "" then stem else base
    | none => base
  stem ++ "." ++ assemblyExtension

def sourcePath (f : Fixture) (root : Path) : Path :=
  Path.join root f.source

def layout : Layout Fixture where
  name := "Fixture"
  fields := [
    .required "name" .string fun v f => { f with name := v },
    .required "category" Category.decoder fun v f => { f with category := v },
    .required "source" .path fun v f => { f with source := v },
    .absent "expected_exit" .int32 fun v f => { f with expectedExit := v }]
  blank := ⟨"", .valid, "", none⟩

def decoder : Decoder Fixture :=
  layout.decode

def toValue (f : Fixture) : Value :=
  .object [
    ("name", .string f.name),
    ("category", f.category.toValue),
    ("source", .string f.source),
    ("expected_exit", match f.expectedExit with
      | some code => .int code
      | none => .null)]

end Fixture

end Conformance
