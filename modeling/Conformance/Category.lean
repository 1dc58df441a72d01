import Conformance.Json.Decode
import Conformance.Text.Lines

namespace Conformance

-- What a fixture is expected to show: a program that runs, or one that the
-- compiler rejects for its grammar or for its meaning.
inductive Category where
  | valid
  | syntaxInvalid
  | semanticInvalid
deriving DecidableEq, Repr

namespace Category

-- All categories in the order of a run.
def all : List Category :=
  [valid, syntaxInvalid, semanticInvalid]

def name : Category → String
  | valid => "valid"
  | syntaxInvalid => "syntax-invalid"
  | semanticInvalid => "semantic-invalid"

def label : Category → String
  | valid => "Valid"
  | syntaxInvalid => "Invalid Syntax"
  | semanticInvalid => "Invalid Semantic"

-- Only valid fixtures go past the compiler.
def executes (c : Category) : Bool :=
  c = valid

-- A name as a person types it: blanks around it and the case of its letters do
-- not matter, and the two long names have short forms.
def ofLooseName? (raw : String) : Option Category :=
  let name := Text.lowerAsciiText (Text.trim raw)
  if name = "valid" then some valid
  else if name = "syntax-invalid" ∨ name = "syntax" then some syntaxInvalid
  else if name = "semantic-invalid" ∨ name = "semantic" then some semanticInvalid
  else none

-- The chosen categories in the order of a run. Choosing none chooses all.
def selection (chosen : List Category) : List Category :=
  if chosen = [] then all else all.filter fun c => c ∈ chosen

def names : List (String × Category) :=
  all.map fun c => (c.name, c)

def decoder : Json.Decoder Category :=
  Json.Decoder.variant names

def toValue (c : Category) : Json.Value :=
  .string c.name

end Category

end Conformance
