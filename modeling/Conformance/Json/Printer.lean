import Conformance.Json.Value
import Conformance.Text.Lines

namespace Conformance.Json

-- Quotation marks, backslashes and controls are escaped, five controls by a
-- short form. All else is written as it is.
def escapeChar (c : Char) : List Char :=
  if c = '"' then ['\\', '"']
  else if c = '\\' then ['\\', '\\']
  else if c = '\x08' then ['\\', 'b']
  else if c = '\x0c' then ['\\', 'f']
  else if c = '\n' then ['\\', 'n']
  else if c = '\r' then ['\\', 'r']
  else if c = '\t' then ['\\', 't']
  else if c.toNat < 0x20 then
    ['\\', 'u', '0', '0', Text.lowerHexDigit (c.toNat / 16), Text.lowerHexDigit (c.toNat % 16)]
  else [c]

def stringChars (s : String) : List Char :=
  '"' :: (s.toList.flatMap escapeChar ++ ['"'])

mutual

-- The form without any blank.
def Value.compactChars : Value → List Char
  | .null => ['n', 'u', 'l', 'l']
  | .bool true => ['t', 'r', 'u', 'e']
  | .bool false => ['f', 'a', 'l', 's', 'e']
  | .number n => n.text.toList
  | .string s => stringChars s
  | .array items => '[' :: (compactItems items ++ [']'])
  | .object members => '\x7b' :: (compactMembers members ++ ['\x7d'])

def compactItems : List Value → List Char
  | [] => []
  | v :: [] => v.compactChars
  | v :: rest => v.compactChars ++ ',' :: compactItems rest

def compactMembers : List (String × Value) → List Char
  | [] => []
  | (name, v) :: [] => stringChars name ++ ':' :: v.compactChars
  | (name, v) :: rest => stringChars name ++ ':' :: (v.compactChars ++ ',' :: compactMembers rest)

end

def Value.compact (v : Value) : String :=
  String.ofList v.compactChars

-- A line end and the indent of a nesting level, two blanks a level.
def freshLine (level : Nat) : List Char :=
  '\n' :: List.replicate (2 * level) ' '

mutual

-- The form with one item or member a line. Empty containers take no line.
def Value.prettyChars (level : Nat) : Value → List Char
  | .array [] => ['[', ']']
  | .object [] => ['\x7b', '\x7d']
  | .array items => '[' :: (prettyItems (level + 1) items ++ freshLine level ++ [']'])
  | .object members => '\x7b' :: (prettyMembers (level + 1) members ++ freshLine level ++ ['\x7d'])
  | .null => ['n', 'u', 'l', 'l']
  | .bool true => ['t', 'r', 'u', 'e']
  | .bool false => ['f', 'a', 'l', 's', 'e']
  | .number n => n.text.toList
  | .string s => stringChars s

def prettyItems (level : Nat) : List Value → List Char
  | [] => []
  | v :: [] => freshLine level ++ v.prettyChars level
  | v :: rest => freshLine level ++ v.prettyChars level ++ ',' :: prettyItems level rest

def prettyMembers (level : Nat) : List (String × Value) → List Char
  | [] => []
  | (name, v) :: [] => freshLine level ++ stringChars name ++ ':' :: ' ' :: v.prettyChars level
  | (name, v) :: rest =>
      freshLine level ++ stringChars name ++ ':' :: ' ' ::
        (v.prettyChars level ++ ',' :: prettyMembers level rest)

end

def Value.pretty (v : Value) : String :=
  String.ofList (v.prettyChars 0)

end Conformance.Json
