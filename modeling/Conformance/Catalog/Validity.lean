import Conformance.Catalog.Basic

namespace Conformance

-- What can be wrong with a catalog.
inductive CatalogFlaw where
  | repeatedCategory (category : Category)
  | repeatedFixture (category : Category) (name : String)
  | unexpectedCode (category : Category) (name : String)
  | codeRange (name : String) (code : Int)
  | blankName (category : Category)
deriving DecidableEq, Repr

def CatalogFlaw.message : CatalogFlaw → String
  | .repeatedCategory c => "category `" ++ c.name ++ "` appears in more than one suite"
  | .repeatedFixture c name =>
      "fixture `" ++ name ++ "` listed twice in category `" ++ c.name ++ "`"
  | .unexpectedCode c name =>
      "fixture `" ++ name ++ "` in category `" ++ c.name ++ "` has an expected exit code"
  | .codeRange name code =>
      "fixture `" ++ name ++ "` has exit code " ++ toString code ++ " outside -255..=255"
  | .blankName c => "empty fixture name in category `" ++ c.name ++ "`"

-- The flaw of one entry behind entries with the given names.
def Entry.flaw? (category : Category) (seen : List String) (entry : Entry) : Option CatalogFlaw :=
  if Text.isBlankText entry.name then some (.blankName category)
  else if entry.name ∈ seen then some (.repeatedFixture category entry.name)
  else match entry.code with
    | none => none
    | some code =>
        if !category.executes then some (.unexpectedCode category entry.name)
        else if -255 ≤ code ∧ code ≤ 255 then none
        else some (.codeRange entry.name code)

def firstEntryFlaw? (category : Category) : List String → List Entry → Option CatalogFlaw
  | _, [] => none
  | seen, entry :: rest =>
      match entry.flaw? category seen with
      | some flaw => some flaw
      | none => firstEntryFlaw? category (entry.name :: seen) rest

def firstSuiteFlaw? : List Category → List Suite → Option CatalogFlaw
  | _, [] => none
  | seen, suite :: rest =>
      if suite.category ∈ seen then some (.repeatedCategory suite.category)
      else match firstEntryFlaw? suite.category [] suite.entries with
        | some flaw => some flaw
        | none => firstSuiteFlaw? (suite.category :: seen) rest

-- The first flaw in the order of suites and entries.
def Catalog.flaw? (catalog : Catalog) : Option CatalogFlaw :=
  firstSuiteFlaw? [] catalog.suites

end Conformance
