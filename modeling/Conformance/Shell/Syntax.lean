namespace Conformance.Shell

mutual

-- A part of a word before it is expanded.
inductive Piece where
  | text (s : String) (quoted : Bool)
  | parameter (name : String) (form : Form) (quoted : Bool)
  -- what a command writes, without the line ends behind it
  | output (command : Command) (quoted : Bool)
  -- the value of an arithmetic expression
  | sum (expression : List Piece) (quoted : Bool)
  -- a substitution that means nothing
  | malformed

-- What is wanted of a parameter.
inductive Form where
  | plain
  | length
  -- by a sign: another word, an assignment, a complaint; also for an empty one
  | instead (sign : Char) (evenEmpty : Bool) (word : List Piece)
  | trimmed (atFront longest : Bool) (pattern : List Piece)

inductive Redirection where
  | file (stream : Nat) (sign : String) (target : List Piece)
  | copy (stream : Nat) (source : List Piece)
  | here (stream : Nat) (body : List Piece)

inductive Command where
  | nothing
  | simple (line : Nat) (assigned : List (String × List Piece)) (words : List (List Piece))
      (redirections : List Redirection)
  | sequence (first second : Command)
  | both (first second : Command)
  | either (first second : Command)
  | negated (inner : Command)
  | piped (parts : List Command)
  | background (inner : Command)
  | branch (condition yes no : Command)
  -- without words, the arguments of the script
  | each (line : Nat) (name : String) (words : Option (List (List Piece))) (body : Command)
  -- repeated as long as the condition has a given truth
  | loop (truth : Bool) (condition body : Command)
  | choice (line : Nat) (subject : List Piece) (cases : List (List (List Piece) × Command))
  | group (line : Nat) (inSubshell : Bool) (body : Command) (redirections : List Redirection)
  | define (name : String) (body : Command)

end

abbrev Word := List Piece

-- A command and what follows it.
def Command.followed (first second : Command) : Command :=
  match second with
  | .nothing => first
  | second => .sequence first second

instance : Inhabited Command := ⟨.nothing⟩

namespace Word

-- The text of a word without quotes and expansions.
def bare? (w : Word) : Option String :=
  (w.mapM fun (piece : Piece) => match piece with
    | .text s false => some s
    | _ => none).map String.join

-- The text of a word with its quotes taken off, and whether it had some.
def unquoted (w : Word) : String × Bool :=
  (String.join (w.map fun (piece : Piece) => match piece with
    | .text s _ => s
    | .parameter name _ _ => "$" ++ name
    | _ => ""),
  w.any fun (piece : Piece) => match piece with
    | .text _ quoted => quoted
    | _ => false)

-- A word with one more piece, the last piece coming first. Texts of one kind
-- are joined.
def extended (piece : Piece) (done : Word) : Word :=
  match piece, done with
  | .text s quoted, .text before same :: rest =>
      if quoted = same then .text (before ++ s) quoted :: rest else piece :: done
  | _, _ => piece :: done

def extendedAll (pieces done : Word) : Word :=
  pieces.foldl (fun done piece => extended piece done) done

end Word

def isNameStart (c : Char) : Bool :=
  c.isAlpha || c = '_'

def isNameChar (c : Char) : Bool :=
  c.isAlphanum || c = '_'

def isName (s : String) : Bool :=
  match s.toList with
  | c :: rest => isNameStart c && rest.all isNameChar
  | [] => false

def isSpecial (c : Char) : Bool :=
  c.isDigit || c ∈ ['@', '*', '#', '?', '$', '!', '-']

-- Why a script has no meaning.
inductive SyntaxError where
  | unexpected (found : String) (expected : Option String)
  | openQuote
  | openBackquote
  | openBrace
  | openSum
  | badLoopVariable
  | badFunctionName
deriving DecidableEq, Repr

-- What a message about a script says at most.
def maxExpectation : Nat := 63

def SyntaxError.message : SyntaxError → String
  | .unexpected found none => found ++ " unexpected"
  | .unexpected found (some expected) =>
      String.ofList ((found ++ " unexpected (expecting " ++ expected ++ ")").toList.take
        maxExpectation)
  | .openQuote => "Unterminated quoted string"
  | .openBackquote => "EOF in backquote substitution"
  | .openBrace => "Missing '\x7d'"
  | .openSum => "Missing '))'"
  | .badLoopVariable => "Bad for loop variable"
  | .badFunctionName => "Bad function name"

end Conformance.Shell
