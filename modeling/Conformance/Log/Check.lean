import Conformance.Log.Entry
import Conformance.Text.Lines

namespace Conformance.Log

open Json

-- One rule of the log that a line breaks.
structure Violation where
  line : Nat
  field : String
  message : String
deriving DecidableEq, Repr

-- How a violation is told, in pieces and as a whole.
def Violation.texts (v : Violation) : List String :=
  ["line ", toString v.line, ": field '", v.field, "': ", v.message]

def Violation.display (v : Violation) : String :=
  String.join v.texts

def missingFields (line : Nat) (message : String) (obj : Value) (fields : List String) :
    List Violation :=
  (fields.filter fun name => (obj.member? name).isNone).map fun name => ⟨line, name, message⟩

-- A field that holds a string must hold one of the allowed ones.
def wrongName (line : Nat) (obj : Value) (field : String) (allowed : List String) :
    List Violation :=
  match (obj.member? field).bind Value.text? with
  | some s =>
      if s ∈ allowed then []
      else [⟨line, field, "invalid " ++ field ++ ": '" ++ s ++ "'"⟩]
  | none => []

def isVerdict (obj : Value) : Bool :=
  (obj.member? "event").bind Value.text? = some "fixture_verdict"

def verdictFields (line : Nat) (obj : Value) : List Violation :=
  if isVerdict obj then
    missingFields line "fixture_verdict events must include this field" obj
      ["fixture", "category", "outcome"]
  else []

def traceForm (line : Nat) (obj : Value) : List Violation :=
  match (obj.member? "trace_id").bind Value.text? with
  | some id =>
      if Text.contains id "::" then []
      else [⟨line, "trace_id",
        "trace_id should follow <suite>::<run_id>::<seq> format, got: '" ++ id ++ "'"⟩]
  | none => []

-- The violations that can be told from the object alone.
def formViolations (line : Nat) (obj : Value) : List Violation :=
  missingFields line "required field missing" obj ["timestamp", "trace_id", "level", "event"] ++
    wrongName line obj "level" (Level.all.map Level.name) ++
    wrongName line obj "outcome" (Mark.all.map Mark.name) ++
    wrongName line obj "category" (Category.all.map Category.name) ++
    wrongName line obj "stage" (Stage.all.map Stage.name) ++
    verdictFields line obj ++ traceForm line obj

-- The entry on a line, or all rules that the line breaks. Types are looked at
-- only when the form is right.
def checkLine (text : String) (line : Nat) : Except (List Violation) Entry :=
  match Value.ofText text with
  | .error f => .error [⟨line, "<json>", "invalid JSON: " ++ f.message⟩]
  | .ok (.object members) =>
      match formViolations line (.object members) with
      | [] =>
          match decodeValue Entry.decoder (.object members) with
          | .ok entry => .ok entry
          | .error e => .error [⟨line, "<deserialization>", "failed to deserialize: " ++ e.message⟩]
      | violations => .error violations
  | .ok _ => .error [⟨line, "<root>", "expected JSON object"⟩]

-- The count of lines that are not blank, and the violations, in order.
def checkLines : Nat → List String → Nat × List Violation
  | _, [] => (0, [])
  | number, text :: rest =>
      let (count, violations) := checkLines (number + 1) rest
      let trimmed := Text.trim text
      if trimmed = "" then (count, violations)
      else match checkLine trimmed number with
        | .ok _ => (count + 1, violations)
        | .error found => (count + 1, found ++ violations)

def checkText (text : String) : Nat × List Violation :=
  checkLines 1 (Text.lines text)

end Conformance.Log
