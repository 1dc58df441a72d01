import Conformance.Machine.Kernel
import Conformance.Shell.Parser
import Conformance.Shell.Session

namespace Conformance.Shell

open Machine (findProgram runnable usualPath)

-- Why a file cannot be opened, made or run, in the words of the shell.
def openReason : IoError → String
  | .notFound => "No such file"
  | .notADirectory => "No such file"
  | e => e.reason

def createReason : IoError → String
  | .notFound => "Directory nonexistent"
  | .notADirectory => "Directory nonexistent"
  | e => e.reason

def runReason : IoError → String
  | .notFound => "not found"
  | .notADirectory => "not found"
  | e => e.reason

-- The status of a program that could not be run.
def runStatus (e : IoError) : Nat :=
  if e ∈ [.notFound, .notADirectory, .nameTooLong, .tooManyLinks] then 127 else 126

namespace Session

def path (s : Session) : String :=
  (s.value? "PATH").getD usualPath

end Session

-- The commands of the shell that any function may stand for.
def regularNames : List String :=
  ["[", "alias", "bg", "cd", "chdir", "command", "echo", "false", "fg", "getopts", "hash", "jobs",
    "kill", "printf", "pwd", "read", "test", "true", "type", "ulimit", "umask",
    "unalias", "wait"]

-- What a name means to the shell.
inductive Meaning where
  | keyword
  | alias (text : String)
  | special
  | function
  | regular
  | program (path : Path) (wasFound : Bool)
  | nothing
deriving DecidableEq, Repr

def meaning (s : Session) (t : Tree) (cwd : Place) (name : String) : Meaning :=
  let text := (s.aliases.find? fun entry => entry.1 = name).map Prod.snd
  if Token.keywords.contains name then .keyword
  else if text.isSome then .alias (text.getD "")
  else if Parser.specialNames.contains name then .special
  else if s.functions.any fun f => f.1 = name then .function
  else if regularNames.contains name then .regular
  else match findProgram t cwd s.path name with
    | .ok p => if (runnable t cwd p).isOk then .program p (s.hashed.contains name) else .nothing
    | .error _ => .nothing

end Conformance.Shell
