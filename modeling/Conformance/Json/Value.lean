import Conformance.Decimal.Shortest

namespace Conformance.Json

-- Whole numbers from -2^63 up to 2^64 - 1 stay whole; all others are binary
-- fractions of 64 bits.
inductive Number where
  | int (i : Int)
  | float (x : Float)

-- The members of an object stand in the order of the document.
inductive Value where
  | null
  | bool (b : Bool)
  | number (n : Number)
  | string (s : String)
  | array (items : List Value)
  | object (members : List (String × Value))

abbrev Member := String × Value

def Value.nat (n : Nat) : Value :=
  .number (.int n)

def Value.int (i : Int) : Value :=
  .number (.int i)

def Number.text : Number → String
  | .int i => toString i
  | .float x => Decimal.shortestText x

-- A later member replaces an earlier one of the same name.
def put (name : String) (value : α) : List (String × α) → List (String × α)
  | [] => [(name, value)]
  | (other, v) :: rest =>
      if name = other then (name, value) :: rest
      else if name < other then (name, value) :: (other, v) :: rest
      else (other, v) :: put name value rest

-- Members by name, in the order of names, the last of equal names.
def sorted (members : List (String × α)) : List (String × α) :=
  members.foldl (fun acc member => put member.1 member.2 acc) []

mutual

-- The form of a value in which the order of members carries nothing.
def Value.normal : Value → Value
  | .array items => .array (normalItems items)
  | .object members => .object (sorted (normalMembers members))
  | v => v

def normalItems : List Value → List Value
  | [] => []
  | v :: rest => v.normal :: normalItems rest

def normalMembers : List (String × Value) → List (String × Value)
  | [] => []
  | (name, v) :: rest => (name, v.normal) :: normalMembers rest

end

def Value.member? (name : String) : Value → Option Value
  | .object members => (members.find? fun member => member.1 = name).map Prod.snd
  | _ => none

def Value.text? : Value → Option String
  | .string s => some s
  | _ => none

end Conformance.Json
