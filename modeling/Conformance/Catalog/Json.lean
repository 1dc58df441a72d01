import Conformance.Catalog.Validity
import Conformance.Json.Printer

namespace Conformance

open Json

namespace Entry

-- The particulars of an entry. No code and no mark of being disabled is the
-- same as leaving them out.
def layout : Layout (String × Option Int × Bool) where
  name := "CatalogEntry"
  fields := [
    .required "name" .string fun v e => (v, e.2),
    .absent "code" .int32 fun v e => (e.1, v, e.2.2),
    .defaulted "disabled" .bool fun v e => (e.1, e.2.1, v)]
  blank := ("", none, false)

-- An entry is a string or an object. All faults of its form are one.
def decoder : Decoder Entry := fun o d =>
  match Decoder.setAside o d with
  | .error e => .error e
  | .ok (.string (.ok name)) => .ok (.bare name)
  | .ok (.record members stop) =>
      match layout.decode .buffered (.record members stop) with
      | .ok (name, code, disabled) => .ok (.detailed name code disabled)
      | .error _ => .error (.noAlternative "CatalogEntry")
  | .ok _ => .error (.noAlternative "CatalogEntry")

def toValue : Entry → Value
  | bare name => .string name
  | detailed name code disabled =>
      .object ([("name", .string name)] ++
        (match code with
          | some code => [("code", .int code)]
          | none => []) ++
        (if disabled then [("disabled", .bool true)] else []))

end Entry

namespace Suite

def layout : Layout Suite where
  name := "CategorySuite"
  fields := [
    .required "category" Category.decoder fun v s => { s with category := v },
    .required "path_prefix" .string fun v s => { s with directory := v },
    .required "entries" (.list Entry.decoder) fun v s => { s with entries := v }]
  blank := ⟨.valid, "", []⟩

def toValue (suite : Suite) : Value :=
  .object [
    ("category", suite.category.toValue),
    ("path_prefix", .string suite.directory),
    ("entries", .array (suite.entries.map Entry.toValue))]

end Suite

namespace Catalog

def layout : Layout Catalog where
  name := "FixtureCatalog"
  fields := [
    .required "version" .string fun v c => { c with version := v },
    .required "suites" (.list Suite.layout.decode) fun v c => { c with suites := v }]
  blank := ⟨"", []⟩

def toValue (catalog : Catalog) : Value :=
  .object [
    ("version", .string catalog.version),
    ("suites", .array (catalog.suites.map Suite.toValue))]

def toJson (catalog : Catalog) : String :=
  catalog.toValue.pretty

end Catalog

-- Why a text is no catalog.
inductive CatalogError where
  | json (e : DecodeError)
  | flaw (f : CatalogFlaw)

def CatalogError.message : CatalogError → String
  | .json e => "invalid catalog json: " ++ e.message
  | .flaw f => f.message

-- A catalog is accepted only without a flaw.
def Catalog.ofJson (text : String) : Except CatalogError Catalog :=
  match decodeText Catalog.layout.decode text with
  | .error e => .error (.json e)
  | .ok catalog =>
      match catalog.flaw? with
      | some flaw => .error (.flaw flaw)
      | none => .ok catalog

end Conformance
