import Conformance.Catalog.Json
import Conformance.Catalog.Run
import Conformance.Config.Json

namespace Conformance.CommandLine

-- Why a command that was understood did not succeed.
inductive Failure where
  -- a configuration or catalog that cannot be read
  | unreadable (cause : IoError)
  | config (cause : ConfigError)
  | catalog (cause : CatalogError)
  | run (cause : RunError)
  | io (cause : IoError)
  -- a report that its own twin would overwrite
  | reportIsTwin (path : Path)
  -- something that was to be said could not be
  | unheard (stream : String) (cause : IoError)
  | fixturesFailed (count : Nat)
  | logInvalid (violations lines : Nat) (path : Path)

namespace Failure

def fielded (name : String) (fields : List (String × String)) : String :=
  let texts := fields.map fun field => field.1 ++ ": " ++ field.2
  name ++ " \x7b " ++ String.intercalate ", " texts ++ " \x7d"

def wrapped (name inner : String) : String :=
  name ++ "(" ++ inner ++ ")"

-- The place of a fault in its text is not told.
def ofDecoding (e : Json.DecodeError) : String :=
  wrapped "Json" (wrapped "Error" (Text.quoted e.message ++ ", line: 0, column: 0"))

def ofConfigFlaw : ConfigFlaw → String
  | .zeroTimeout field => fielded "ZeroTimeout" [("field", Text.quoted field)]
  | .zeroLimit field => fielded "ZeroLimit" [("field", Text.quoted field)]
  | .overlappingCodes codes => fielded "OverlappingCodes" [
      ("accepted", toString codes.accepted),
      ("syntax", toString codes.syntaxRejected),
      ("semantic", toString codes.semanticRejected)]
  | .emptyTool field => fielded "EmptyTool" [("field", Text.quoted field)]

def ofCategory : Category → String
  | .valid => "Valid"
  | .syntaxInvalid => "SyntaxInvalid"
  | .semanticInvalid => "SemanticInvalid"

def ofCatalogFlaw : CatalogFlaw → String
  | .repeatedCategory c => wrapped "DuplicateCategory" (ofCategory c)
  | .repeatedFixture c name => fielded "DuplicateFixture" [
      ("category", ofCategory c), ("name", Text.quoted name)]
  | .unexpectedCode c name => fielded "UnexpectedExitCode" [
      ("category", ofCategory c), ("name", Text.quoted name)]
  | .codeRange name code => fielded "ExitCodeOutOfRange" [
      ("name", Text.quoted name), ("code", toString code)]
  | .blankName c => wrapped "EmptyName" (ofCategory c)

-- The text behind the word for an error.
def details : Failure → String
  | unreadable cause => wrapped "Io" cause.details
  | config (.json e) => ofDecoding e
  | config (.flaw f) => ofConfigFlaw f
  | catalog (.json e) => ofDecoding e
  | catalog (.flaw f) => ofCatalogFlaw f
  | run .nothingToRun => "NothingToRun"
  | run (.io cause) => wrapped "Io" cause.details
  | io cause => cause.details
  | reportIsTwin path => Text.quoted
      ("--report " ++ path ++ " would be overwritten by its JSON twin; use a .md path")
  | unheard stream cause => "failed printing to " ++ stream ++ ": " ++ cause.message
  | fixturesFailed count => Text.quoted (toString count ++ " fixture(s) failed")
  | logInvalid violations lines path => Text.quoted (toString violations ++
      " validation error(s) in " ++ toString lines ++ " line(s) of " ++ path)

def isUnheard : Failure → Bool
  | unheard _ _ => true
  | _ => false

-- A command that cannot say something breaks off.
def status (e : Failure) : Nat :=
  if e.isUnheard then 101 else 1

end Failure

end Conformance.CommandLine
