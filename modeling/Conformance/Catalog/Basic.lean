import Conformance.Fixture

namespace Conformance

-- An entry of a suite: a bare name, or a name with particulars.
inductive Entry where
  | bare (name : String)
  | detailed (name : String) (code : Option Int) (disabled : Bool)
deriving DecidableEq, Repr

namespace Entry

def name : Entry → String
  | bare name => name
  | detailed name _ _ => name

def code : Entry → Option Int
  | bare _ => none
  | detailed _ code _ => code

def isDisabled : Entry → Bool
  | bare _ => false
  | detailed _ _ disabled => disabled

end Entry

-- The entries of one category, and the directory their names start from.
structure Suite where
  category : Category
  directory : String
  entries : List Entry
deriving DecidableEq, Repr

structure Catalog where
  version : String
  suites : List Suite
deriving DecidableEq, Repr

def Suite.fixtureOf (suite : Suite) (entry : Entry) : Fixture :=
  ⟨entry.name, suite.category, Path.join suite.directory entry.name, entry.code⟩

-- The enabled entries in order.
def Suite.fixtures (suite : Suite) : List Fixture :=
  (suite.entries.filter fun entry => !entry.isDisabled).map suite.fixtureOf

def Suite.disabledCount (suite : Suite) : Nat :=
  (suite.entries.filter Entry.isDisabled).length

namespace Catalog

-- The first suite of a category.
def suite? (catalog : Catalog) (category : Category) : Option Suite :=
  catalog.suites.find? fun suite => suite.category = category

def fixtures (catalog : Catalog) (category : Category) : List Fixture :=
  match catalog.suite? category with
  | some suite => suite.fixtures
  | none => []

def disabledCount (catalog : Catalog) (category : Category) : Nat :=
  match catalog.suite? category with
  | some suite => suite.disabledCount
  | none => 0

end Catalog

end Conformance
