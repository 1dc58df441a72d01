import Conformance.Machine.Process
import Conformance.Text.Lines

namespace Conformance.Tool

open Machine (Act Access Environment Process)
open Text (Bytes)

-- How a program was called.
structure Call where
  name : String
  args : List String
  environment : Environment

-- What a program does, until it ends with a status.
abbrev Task := ReaderT Call (ExceptT Nat Act)

-- The options that a program takes: letters that stand alone, letters with a
-- value, and long names for letters. Where options may stand behind other
-- arguments, those count as if they came last. A call that is not understood
-- has a status of its own, and the form of a call may be shown for it.
structure Grammar where
  flags : List Char := []
  valued : List Char := []
  -- letters that take a value only if it is written right behind them
  attached : List Char := []
  long : List (String × Char) := []
  mixed : Bool := true
  refusal : Nat := 1
  form : String := ""
  -- whether the hint begins with the name of the program
  namesItself : Bool := false

-- The options of a call in their order, and its other arguments.
structure Given where
  options : List (Char × String) := []
  operands : List String := []

namespace Given

def has (g : Given) (letter : Char) : Bool :=
  g.options.any fun o => o.1 = letter

-- The value of an option. The last one counts.
def value? (g : Given) (letter : Char) : Option String :=
  (g.options.reverse.find? fun o => o.1 = letter).map Prod.snd

-- The one of some letters that comes last.
def last? (g : Given) (letters : List Char) : Option Char :=
  (g.options.reverse.find? fun o => letters.contains o.1).map Prod.fst

end Given

def quoted (s : String) : String :=
  "'" ++ s ++ "'"

namespace Task

def act (a : Act α) : Task α := fun _ =>
  (ExceptT.lift (a : Act α) : ExceptT Nat Act α)

def warn (text : String) : Task Unit := do
  let call ← read
  discard (act (Act.write 2 (Text.bytesOf (call.name ++ ": " ++ text ++ "\n"))))

def fail (text : String) (status : Nat) : Task α := do
  warn text
  throw status

-- Output, whose failure ends the program with some status.
def putOr (status : Nat) (data : Bytes) : Task Unit := do
  match ← act (Act.write 1 data) with
  | .ok _ => pure ()
  | .error e => fail ("write error: " ++ e.reason) status

def put (data : Bytes) : Task Unit :=
  putOr 1 data

def say (text : String) : Task Unit :=
  put (Text.bytesOf text)

-- What one file brings; a dash means the standing input.
def input (p : Path) : Task (Except IoError Bytes) := do
  if p = "-" then act (Act.readAll 0)
  else
    match ← act (Act.openFile 3 p .reading) with
    | .error e => pure (.error e)
    | .ok stream => do
        let data ← act (Act.readAll stream)
        act (Act.closeStream stream)
        pure data

-- The work for each of some things; it is done when all of it is.
def all (xs : List α) (work : α → Task Bool) : Task Bool :=
  xs.foldlM (fun done x => do
    let now ← work x
    pure (done && now)) true

def statusOf (done : Bool) : Nat :=
  if done then 0 else 1

-- A call that does not follow the grammar.
def refuse (g : Grammar) (text : String) : Task α := do
  warn text
  let call ← read
  discard (act (Act.write 2 (Text.bytesOf
    ((if g.form = "" then "" else "Usage: " ++ call.name ++ " " ++ g.form ++ "\n") ++
      (if g.namesItself then call.name ++ ": " else "") ++ "Try '" ++ call.name ++
      " --help' for more information.\n"))))
  throw g.refusal

-- A call that the program does not understand.
def misuse (text : String) (status : Nat) : Task α :=
  refuse { refusal := status } text

-- The long options that a name or its beginning stands for.
def longNames (g : Grammar) (name : String) : List (String × Char) :=
  match g.long.filter fun o => o.1 = name with
  | [] => g.long.filter fun o => o.1.startsWith name
  | exact => exact

-- The letters of one argument, the last of which may have a value behind it.
-- Gives the arguments that are left.
def letters (g : Grammar) :
    List Char → List String → Task (List (Char × String) × List String)
  | [], rest => pure ([], rest)
  | c :: more, rest => do
      if g.flags.contains c then
        let (options, rest) ← letters g more rest
        pure ((c, "") :: options, rest)
      else if g.valued.contains c then
        match more, rest with
        | [], [] =>
            refuse g ("option requires an argument -- " ++ quoted (String.ofList [c]))
        | [], value :: rest => pure ([(c, value)], rest)
        | more, rest => pure ([(c, String.ofList more)], rest)
      else if g.attached.contains c then pure ([(c, String.ofList more)], rest)
      else refuse g ("invalid option -- " ++ quoted (String.ofList [c]))

def longOption (g : Grammar) (text : String) (rest : List String) :
    Task ((Char × String) × List String) := do
  let name := String.ofList (text.toList.takeWhile (· ≠ '='))
  let value? := match text.toList.drop name.length with
    | _ :: value => some (String.ofList value)
    | [] => none
  match longNames g name with
  | [] => refuse g ("unrecognized option " ++ quoted ("--" ++ text))
  | (whole, letter) :: others =>
      if others.any fun o => o.2 ≠ letter then
        refuse g ("option " ++ quoted ("--" ++ text) ++ " is ambiguous; possibilities:" ++
          String.join (((whole, letter) :: others).map fun o => " " ++ quoted ("--" ++ o.1)))
      else if g.valued.contains letter then
        match value?, rest with
        | some value, rest => pure ((letter, value), rest)
        | none, value :: rest => pure ((letter, value), rest)
        | none, [] =>
            refuse g ("option " ++ quoted ("--" ++ whole) ++ " requires an argument")
      else if g.attached.contains letter then pure ((letter, value?.getD ""), rest)
      else if value?.isSome then
        refuse g ("option " ++ quoted ("--" ++ whole) ++ " doesn't allow an argument")
      else pure ((letter, ""), rest)

-- The options among some arguments.
def sorted (g : Grammar) : Nat → List String → Task Given
  | 0, _ => pure {}
  | _, [] => pure {}
  | fuel + 1, arg :: rest => do
      let withFirst (options : List (Char × String)) (rest : List String) : Task Given := do
        let given ← sorted g fuel rest
        pure { given with options := options ++ given.options }
      match arg.toList with
      | ['-', '-'] => pure { operands := rest }
      | '-' :: '-' :: text => do
          let (option, rest) ← longOption g (String.ofList text) rest
          withFirst [option] rest
      | '-' :: c :: more => do
          let (options, rest) ← letters g (c :: more) rest
          withFirst options rest
      | _ =>
          if g.mixed then
            let given ← sorted g fuel rest
            pure { given with operands := arg :: given.operands }
          else pure { operands := arg :: rest }

-- The arguments of the call, sorted out.
def arguments (g : Grammar) : Task Given := do
  let args := (← read).args
  sorted g (args.length + 1) args

-- One line of the standing input, read byte by byte.
def line : Nat → Bytes → Task Bytes
  | 0, seen => pure seen.reverse
  | fuel + 1, seen => do
      match ← act (Act.read 0 1) with
      | .ok [b] => if b = 10 then pure seen.reverse else line fuel (b :: seen)
      | _ => pure seen.reverse

-- Whether the answer to a question is yes. What is not asked is agreed to.
def agrees (asks : Bool) (question : String) : Task Bool := do
  if asks then
    let call ← read
    discard (act (Act.write 2 (Text.bytesOf (call.name ++ ": " ++ question ++ "? "))))
    let answer ← line Act.patience []
    pure (answer.head? = some 121 || answer.head? = some 89)
  else pure true

-- One of some words, or a beginning of one alone.
def choice (option word : String) (words : List (List String)) (status : Nat) : Task String := do
  let isMeant (names : List String) : Bool := names.any fun name => name.startsWith word
  let wrong (what : String) : Task String := do
    warn (what ++ " argument " ++ quoted word ++ " for " ++ quoted option)
    let call ← read
    let line (names : List String) : String :=
      "  - " ++ String.intercalate ", " (names.map quoted) ++ "\n"
    discard (act (Act.write 2 (Text.bytesOf ("Valid arguments are:\n" ++
      String.join (words.map line) ++ "Try '" ++ call.name ++
      " --help' for more information.\n"))))
    throw status
  if words.flatten.contains word then pure word
  else match words.filter isMeant with
    | [names] => pure (names.headD word)
    | [] => wrong "invalid"
    | _ => wrong "ambiguous"

-- The process that a program is, once it is called.
def process (task : Task Nat) (args : List String) (environment : Environment) : Process :=
  ((task ⟨args.headD "", args.drop 1, environment⟩).run : Act (Except Nat Nat)) fun result =>
    match result with
    | .ok status => .done (.exited (status % 256))
    | .error status => .done (.exited (status % 256))

end Task

end Conformance.Tool
