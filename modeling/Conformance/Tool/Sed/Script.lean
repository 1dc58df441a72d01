import Conformance.Regex.Parser

-- The scripts of the stream editor.
namespace Conformance.Tool.Sed

open Text (Bytes)

-- A pattern, or the one that was used last.
inductive Pattern where
  | of (r : Regex) (groups : Nat) (manner : Regex.Manner)
  | last
deriving Repr

inductive Address where
  | line (n : Nat)
  | steps (first step : Nat)
  | lastLine
  | pattern (p : Pattern)
deriving Repr

inductive Stop where
  | address (a : Address)
  -- so many lines more
  | more (n : Nat)
  -- the next line whose number is a multiple
  | multiple (n : Nat)
deriving Repr

inductive Selection where
  | every
  | one (a : Address)
  | range (first : Address) (stop : Stop)
deriving Repr

-- How letters change their case in a replacement.
inductive Casing where
  | upper
  | lower
  | nextUpper
  | nextLower
  | none
deriving DecidableEq, Repr

inductive Piece where
  | text (data : Bytes)
  | group (n : Nat)
  | casing (c : Casing)
deriving Repr

structure Substitution where
  pattern : Pattern
  replacement : List Piece
  -- the number of the match to begin with, and whether all after it count
  first : Nat := 1
  all : Bool := false
  prints : Bool := false
  file : Option String := none
deriving Repr

inductive Action where
  -- where to go on when the block is not for a line
  | opens (behind : Nat)
  | closes
  | label
  | jump (target : Option Nat)
  | jumpIfReplaced (replaced : Bool) (target : Option Nat)
  | append (text : Bytes)
  | insert (text : Bytes)
  | change (text : Bytes)
  | delete
  | deleteLine
  | get
  | getMore
  | hold
  | holdMore
  | exchange
  | next
  | nextMore
  | print
  | printLine
  | printNumber
  | printName
  -- cut at a width, if one is given
  | list (width : Option Nat)
  | quit (status : Nat) (prints : Bool)
  | readFile (path : String)
  | readLine (path : String)
  | writeFile (path : String)
  | writeLine (path : String)
  | substitute (s : Substitution)
  | transliterate (pairs : List (UInt8 × UInt8))
  | empty
deriving Repr

structure Command where
  selection : Selection
  negated : Bool
  action : Action
deriving Repr

abbrev Script := Array Command

namespace Script

-- The files that a script writes.
def written (s : Script) : List String :=
  (s.toList.filterMap fun c => match c.action with
    | .writeFile path => some path
    | .writeLine path => some path
    | .substitute { file := file, .. } => file
    | _ => none).eraseDups

end Script

end Conformance.Tool.Sed
