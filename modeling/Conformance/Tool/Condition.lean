import Conformance.Shell.Condition
import Conformance.Tool.Task

-- Conditions as programs read them. They are the shell's but for the order in
-- which words are understood and for numbers of any size.
namespace Conformance.Tool

open Machine (Act)

namespace Condition

inductive Fault where
  | missing (last : String)
  | notUnary (word : String)
  | notBinary (word : String)
  | notNumber (word : String)
  | unclosed (found : Option String)
  | extra (word : String)

def Fault.message : Fault → String
  | missing last => "missing argument after " ++ quoted last
  | notUnary word => quoted word ++ ": unary operator expected"
  | notBinary word => quoted word ++ ": binary operator expected"
  | notNumber word => "invalid integer " ++ quoted word
  | unclosed none => quoted ")" ++ " expected"
  | unclosed (some word) => quoted ")" ++ " expected, found " ++ quoted word
  | extra word => "extra argument " ++ quoted word

-- Where a condition is asked, and its last word.
structure Scene where
  files : Tree
  cwd : Place
  last : String

def comparisons : List String :=
  ["=", "==", "!=", "-nt", "-ot", "-ef", "-eq", "-ne", "-lt", "-le", "-gt", "-ge"]

def isComparison (words : List String) : Bool :=
  words.head?.any comparisons.contains

def fileLetters : List Char :=
  ['e', 'r', 'w', 'x', 'N', 'O', 'G', 'f', 'd', 's', 'S', 'c', 'b', 'p', 'L', 'h', 'u', 'g', 'k']

def integer (word : String) : Except Fault Int :=
  let blank (c : Char) : Bool := c = ' ' || c = '\t'
  let cs := word.toList.dropWhile blank
  let (negative, body) := match cs with
    | '-' :: rest => (true, rest)
    | '+' :: rest => (false, rest)
    | cs => (false, cs)
  let digits := body.takeWhile Char.isDigit
  match (String.ofList digits).toNat?, (body.drop digits.length).all blank with
  | some n, true => .ok (if negative then -n else n)
  | _, _ => .error (.notNumber word)

def compare (s : Scene) (left operator right : String) : Except Fault Bool := do
  match operator with
  | "==" => .ok (left = right)
  | "-eq" => .ok ((← integer left) = (← integer right))
  | "-ne" => .ok ((← integer left) ≠ (← integer right))
  | "-lt" => .ok ((← integer left) < (← integer right))
  | "-le" => .ok ((← integer left) ≤ (← integer right))
  | "-gt" => .ok ((← integer left) > (← integer right))
  | "-ge" => .ok ((← integer left) ≥ (← integer right))
  | operator =>
      .ok ((Shell.Condition.compare s.files s.cwd left operator right).toOption.getD false)

-- The truth at the front of some words, and the words behind it.
abbrev Reading := Except Fault (Bool × List String)

def Reading.not (r : Reading) : Reading :=
  r.map fun (truth, rest) => (!truth, rest)

def single : List String → Reading
  | [] => .ok (false, [])
  | word :: rest => .ok (word ≠ "", rest)

def isSwitch (word : String) : Bool :=
  match word.toList with
  | ['-', _] => true
  | _ => false

-- A switch and the word that it asks about.
def unary (s : Scene) : List String → Reading
  | [] => .error (.missing s.last)
  | switch :: rest =>
      let letter := switch.toList.getD 1 ' '
      if !(['n', 'z', 't'] ++ fileLetters).contains letter then .error (.notUnary switch)
      else match rest with
        | [] => .error (.missing s.last)
        | word :: rest =>
            match letter with
            | 'n' => .ok (word ≠ "", rest)
            | 'z' => .ok (word = "", rest)
            | 't' => do
                discard (integer word)
                .ok (false, rest)
            | _ => .ok (Shell.Condition.fileHolds s.files s.cwd switch word, rest)

def binary (s : Scene) : List String → Reading
  | left :: operator :: right :: rest => do
      let truth ← compare s left operator right
      .ok (truth, rest)
  | _ => .error (.missing s.last)

def pair (s : Scene) : List String → Reading
  | "!" :: rest => (single rest).not
  | words => if isSwitch (words.headD "") then unary s words else .error (.missing s.last)

-- How many words are inside brackets, as far as that is looked for.
def lengthInside (words : List String) : Nat :=
  let before := (words.drop 1).takeWhile (· ≠ ")")
  if before.length ≥ 4 ∧ words.length > 4 then words.length else 1 + before.length

mutual

-- So many words: few of them are read by their number.
def counted (s : Scene) : Nat → Nat → List String → Reading
  | 0, _, words => .ok (false, words)
  | fuel + 1, count, words =>
      match count, words with
      | 1, words => single words
      | 2, words => pair s words
      | 3, words => triple s fuel words
      | 4, "!" :: rest => (triple s fuel rest).not
      | 4, "(" :: a :: b :: ")" :: rest => do
          let (truth, behind) ← pair s (a :: b :: ")" :: rest)
          .ok (truth, behind.drop 1)
      | _, words => disjunction s fuel words

def triple (s : Scene) : Nat → List String → Reading
  | 0, words => .ok (false, words)
  | fuel + 1, words =>
      let second := words.getD 1 ""
      if isComparison (words.drop 1) then binary s words
      else match words with
        | "!" :: rest => (pair s rest).not
        | "(" :: a :: ")" :: rest => .ok (a ≠ "", rest)
        | words =>
            if second = "-a" ∨ second = "-o" then disjunction s fuel words
            else .error (.notBinary second)

def disjunction (s : Scene) : Nat → List String → Reading
  | 0, words => .ok (false, words)
  | fuel + 1, words => do
      let (first, rest) ← conjunction s fuel words
      match rest with
      | "-o" :: more => do
          let (second, rest) ← disjunction s fuel more
          .ok (first || second, rest)
      | rest => .ok (first, rest)

def conjunction (s : Scene) : Nat → List String → Reading
  | 0, words => .ok (false, words)
  | fuel + 1, words => do
      let (first, rest) ← term s fuel words
      match rest with
      | "-a" :: more => do
          let (second, rest) ← conjunction s fuel more
          .ok (first && second, rest)
      | rest => .ok (first, rest)

def term (s : Scene) : Nat → List String → Reading
  | 0, words => .ok (false, words)
  | fuel + 1, words => do
      match words with
      | [] => .error (.missing s.last)
      | "!" :: [] => .error (.missing s.last)
      | "!" :: rest => (term s fuel rest).not
      | "(" :: [] => .error (.missing s.last)
      | "(" :: rest => do
          let (truth, behind) ← counted s fuel (lengthInside rest) rest
          match behind with
          | ")" :: more => .ok (truth, more)
          | found => .error (.unclosed found.head?)
      | word :: rest =>
          if word = "-l" && isComparison (rest.drop 1) && rest.length ≥ 3 then
            match rest with
            | text :: rest => binary s (toString text.utf8ByteSize :: rest)
            | [] => .error (.missing s.last)
          else if isComparison rest && rest.length ≥ 2 then binary s words
          else if isSwitch word then unary s words
          else .ok (word ≠ "", rest)

end

-- The truth of all words.
def holds (files : Tree) (cwd : Place) (words : List String) : Except Fault Bool := do
  if words.isEmpty then .ok false
  else
    let s : Scene := ⟨files, cwd, words.getLastD ""⟩
    match ← counted s (4 * words.length + 8) words.length words with
    | (truth, []) => .ok truth
    | (_, word :: _) => .error (.extra word)

end Condition

def condition (words : List String) : Task Nat := do
  let t ← Task.act Act.files
  let cwd ← Task.act Act.cwd
  match Condition.holds t cwd words with
  | .ok truth => pure (Task.statusOf truth)
  | .error f => Task.fail f.message 2

def test : Task Nat := do
  condition (← read).args

def bracket : Task Nat := do
  let args := (← read).args
  if args.getLast? = some "]" then condition args.dropLast
  else Task.fail ("missing " ++ quoted "]") 2

end Conformance.Tool
