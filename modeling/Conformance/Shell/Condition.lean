import Conformance.Files.Tree
import Conformance.Shell.Arithmetic

namespace Conformance.Shell

-- Conditions on texts, numbers and files, as a list of words.
namespace Condition

inductive Fault where
  -- a word and what is wrong at it
  | wrong (word : String) (what : String)
  | notNumber (word : String)
  | unclosed
deriving DecidableEq, Repr

def fileOperators : List String :=
  ["-r", "-w", "-x", "-e", "-f", "-d", "-c", "-b", "-p", "-u", "-g", "-k", "-s", "-t", "-h", "-O",
    "-G", "-L", "-S"]

def textOperators : List String := ["-z", "-n"]

def comparisons : List String :=
  ["=", "!=", "<", ">", "-eq", "-ne", "-ge", "-gt", "-le", "-lt", "-nt", "-ot", "-ef"]

-- Whether the truth of some words may depend on files.
def isAboutFiles (words : List String) : Bool :=
  words.any fun word => fileOperators.contains word || word = "-ef"

def isUnary (word : String) : Bool :=
  fileOperators.contains word || textOperators.contains word

def isComparison (word : String) : Bool :=
  comparisons.contains word

-- What stands at a path, following links.
def nodeAt? (t : Tree) (cwd : Place) (p : Path) : Option Node :=
  match t.locate cwd p with
  | .ok place => t.node? place
  | .error _ => none

def linkAt (t : Tree) (cwd : Place) (p : Path) : Bool :=
  match t.entry cwd p with
  | .ok place =>
      match t.node? place with
      | some (.link _) => true
      | _ => false
  | .error _ => false

def fileHolds (t : Tree) (cwd : Place) (operator word : String) : Bool :=
  match operator, nodeAt? t cwd word with
  | "-h", _ => linkAt t cwd word
  | "-L", _ => linkAt t cwd word
  | "-d", some .directory => true
  | "-f", some (.file _ _) => true
  | "-f", some (.tool _) => true
  | "-c", some (.device _) => true
  | "-s", some (.file data _) => !data.isEmpty
  | "-s", some (.device _) => false
  | "-s", some _ => true
  | "-x", some (.file _ executable) => executable
  | "-x", some (.device _) => false
  | "-x", some _ => true
  | operator, some _ => ["-e", "-r", "-w", "-O", "-G"].contains operator
  | _, none => false

def integer (word : String) : Except Fault Int :=
  let cs := word.toList.dropWhile Char.isWhitespace
  let (negative, body) := match cs with
    | '-' :: rest => (true, rest)
    | '+' :: rest => (false, rest)
    | cs => (false, cs)
  let (n, rest) := Arithmetic.digits 10 body
  let n : Int := if negative then -n else n
  let fits := n ≤ Arithmetic.largest && -Arithmetic.largest - 1 ≤ n
  if body.head?.any Char.isDigit && (rest.dropWhile Char.isWhitespace).isEmpty && fits then
    .ok n
  else .error (.notNumber word)

def compare (t : Tree) (cwd : Place) (left operator right : String) : Except Fault Bool := do
  match operator with
  | "=" => .ok (left = right)
  | "!=" => .ok (left ≠ right)
  | "<" => .ok (left < right)
  | ">" => .ok (right < left)
  -- no file is told to be newer than another one
  | "-nt" => .ok false
  | "-ot" => .ok false
  | "-ef" => .ok ((nodeAt? t cwd left).isSome &&
      (t.locate cwd left).toOption = (t.locate cwd right).toOption)
  | operator =>
      let a ← integer left
      let b ← integer right
      match operator with
      | "-eq" => .ok (a = b)
      | "-ne" => .ok (a ≠ b)
      | "-ge" => .ok (a ≥ b)
      | "-gt" => .ok (a > b)
      | "-le" => .ok (a ≤ b)
      | _ => .ok (a < b)

-- An operator in front of a word is itself a word when a comparison follows
-- it, or nothing.
def isOperand : List String → Bool
  | [] => true
  | [_] => false
  | next :: _ :: _ => isComparison next

section

variable (t : Tree) (cwd : Place)

mutual

-- The truth of the words at the front, and the words behind them. All parts of
-- a condition are looked at.
def disjunction : Nat → List String → Except Fault (Bool × List String)
  | 0, words => .ok (false, words)
  | fuel + 1, words => do
      let (first, rest) ← conjunction fuel words
      match rest with
      | "-o" :: more => do
          let (second, rest) ← disjunction fuel more
          .ok (first || second, rest)
      | rest => .ok (first, rest)

def conjunction : Nat → List String → Except Fault (Bool × List String)
  | 0, words => .ok (false, words)
  | fuel + 1, words => do
      let (first, rest) ← negation fuel words
      match rest with
      | "-a" :: more => do
          let (second, rest) ← conjunction fuel more
          .ok (first && second, rest)
      | rest => .ok (first, rest)

def negation : Nat → List String → Except Fault (Bool × List String)
  | 0, words => .ok (false, words)
  | fuel + 1, words => do
      match words with
      | "!" :: rest => do
          let (inner, rest) ← negation fuel rest
          .ok (!inner, rest)
      | words => primary fuel words

def primary : Nat → List String → Except Fault (Bool × List String)
  | 0, words => .ok (false, words)
  | fuel + 1, words => do
      match words with
      | [] => .ok (false, [])
      | first :: rest =>
          if first = "(" ∧ !rest.isEmpty then
            match rest with
            | ")" :: more => .ok (false, more)
            | rest =>
                match ← disjunction fuel rest with
                | (inner, ")" :: more) => .ok (inner, more)
                | _ => .error .unclosed
          else if isUnary first && !isOperand rest then
            match rest with
            | [] => .error (.wrong first "argument expected")
            | word :: more =>
                .ok (if first = "-z" then word = ""
                  else if first = "-n" then word ≠ ""
                  else fileHolds t cwd first word, more)
          else match rest with
            | operator :: more =>
                if isComparison operator then
                  match more with
                  | [] => .error (.wrong operator "argument expected")
                  | word :: behind => do
                      let truth ← compare t cwd first operator word
                      .ok (truth, behind)
                else .ok (first ≠ "", rest)
            | [] => .ok (first ≠ "", [])

end

-- The truth of a whole condition. Where more words follow, the last one that
-- was understood is at fault.
def holds (words : List String) : Except Fault Bool := do
  let whole (words : List String) : Except Fault Bool := do
    match ← disjunction t cwd (2 * words.length + 8) words with
    | (truth, []) => .ok truth
    | (_, rest) =>
        .error (.wrong (words.getD (words.length - rest.length - 1) "") "unexpected operator")
  match words with
  | [] => .ok false
  | [a, b, c] =>
      if isComparison b then compare t cwd a b c
      else if a = "(" ∧ c = ")" then whole [b]
      else if a = "!" then (whole [b, c]).map (!·)
      else whole words
  | ["!", a, b, c] => if isComparison b then (compare t cwd a b c).map (!·) else whole words
  | ["(", a, b, ")"] => whole [a, b]
  | words => whole words

end

end Condition

end Conformance.Shell
