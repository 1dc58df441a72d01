import Conformance.Files.Error
import Conformance.Path
import Conformance.Process.Status

namespace Conformance

-- Where the streams of a child go.
inductive OutputPolicy where
  | discard
  -- each into a file of its own, made empty first
  | capture (stdout stderr : Path)
deriving DecidableEq, Repr

-- A fully described external command.
structure Invocation where
  program : String
  args : List String := []
  currentDir : Option Path := none
  timeoutMs : Option Nat := none
  output : OutputPolicy := .discard
  -- how large each captured stream may grow
  captureLimit : Option Nat := none
deriving DecidableEq, Repr

namespace Invocation

def withArg (i : Invocation) (arg : String) : Invocation :=
  { i with args := i.args ++ [arg] }

def withArgs (i : Invocation) (args : List String) : Invocation :=
  { i with args := i.args ++ args }

def inDirectory (i : Invocation) (dir : Path) : Invocation :=
  { i with currentDir := some dir }

def withTimeout (i : Invocation) (timeoutMs : Option Nat) : Invocation :=
  { i with timeoutMs := timeoutMs }

def capturing (i : Invocation) (stdout stderr : Path) : Invocation :=
  { i with output := .capture stdout stderr }

def withCaptureLimit (i : Invocation) (limit : Option Nat) : Invocation :=
  { i with captureLimit := limit }

-- The program and its arguments, one blank apart.
def command (i : Invocation) : String :=
  String.intercalate " " (i.program :: i.args)

end Invocation

-- Failures on this side of a child. A program that cannot be started is none
-- of them: it is a status.
inductive InvokeError where
  | captureFile (path : Path) (cause : IoError)
  | wait (program : String) (cause : IoError)
  | reap (program : String) (cause : IoError)
deriving DecidableEq, Repr

def InvokeError.message : InvokeError → String
  | .captureFile path cause => "failed to create capture file " ++ path ++ ": " ++ cause.message
  | .wait program cause => "failed to poll `" ++ program ++ "`: " ++ cause.message
  | .reap program cause => "failed to reap `" ++ program ++ "` after kill: " ++ cause.message

-- A status and the time it took.
structure InvocationResult where
  status : Status
  elapsedMs : Nat
deriving DecidableEq, Repr

end Conformance
