import Conformance.Machine.Process
import Conformance.Shell.Syntax

namespace Conformance.Shell

open Machine (Act Environment)
open Text (Bytes)

-- A name with what it stands for, if it is set.
structure Binding where
  name : String
  value : Option String
  exported : Bool := false
  fixed : Bool := false
deriving DecidableEq, Repr

-- Why the rest of a command is not carried out.
inductive Flow where
  | exits
  -- a command went wrong in a way that ends a script
  | failed
  | broken (levels : Nat)
  | continued (levels : Nat)
  | returned
deriving DecidableEq, Repr

-- What was started in the background: its processes with how they ended, as
-- far as that was seen, and whether the script knows of its end.
structure Job where
  parts : List (Nat × Option Machine.Ending)
  waited : Bool := false
deriving Repr

namespace Job

-- The process that stands for the job.
def number (j : Job) : Nat :=
  (j.parts.getLast?.map Prod.fst).getD 0

def isOver (j : Job) : Bool :=
  j.parts.all fun part => part.2.isSome

-- How the job ended. The last part counts.
def ending? (j : Job) : Option Machine.Ending :=
  if j.isOver then (j.parts.getLast?).bind Prod.snd else none

def noting (number : Nat) (ending : Machine.Ending) (j : Job) : Job :=
  { j with parts := j.parts.map fun part =>
      if part.1 = number then (number, some ending) else part }

end Job

-- What a shell knows.
structure Session where
  name : String
  args : List String
  bindings : List Binding := []
  functions : List (String × Command) := []
  status : Nat := 0
  -- the letters of those that are on
  options : List Char := []
  -- by signal, with zero for the end of the shell
  traps : List (Nat × String) := []
  lastBackground : Option Nat := none
  -- by number, from one on
  jobs : List Job := []
  -- other processes that were seen to end
  ended : List (Nat × Machine.Ending) := []
  line : Nat := 1
  -- the command that a message is about
  speaker : Option String := none
  loops : Nat := 0
  functionDepth : Nat := 0
  -- what names stood for outside the functions that made them their own
  shadowed : List (List (String × Option Binding)) := []
  number : Nat := 0
  -- the status of the last command that was run for its output
  outputStatus : Option Nat := none
  -- how far the options of the arguments were read
  optionOffset : Nat := 0
  -- the directory as it was gone to
  here : String := ""
  aliases : List (String × String) := []
  -- programs that were found before
  hashed : List String := []

namespace Session

def binding? (s : Session) (name : String) : Option Binding :=
  s.bindings.find? fun b => b.name = name

def value? (s : Session) (name : String) : Option String :=
  (s.binding? name).bind Binding.value

def setBinding (s : Session) (b : Binding) : Session :=
  let isHere (other : Binding) : Bool := other.name = b.name
  { s with bindings := if s.bindings.any isHere then
      s.bindings.map fun other => if isHere other then b else other
    else s.bindings ++ [b] }

-- The session with a name set. What was exported stays so. Programs are looked
-- for anew when the path is another one.
def assign (s : Session) (name value : String) : Session :=
  let s := if name = "PATH" then { s with hashed := [] } else s
  let old := (s.binding? name).getD ⟨name, none, false, false⟩
  s.setBinding { old with
    value := some value, exported := old.exported || s.options.contains 'a' }

-- A name with a slash is not looked for.
def remembering (s : Session) (name : String) : Session :=
  if s.hashed.contains name || name.toList.contains '/' then s
  else { s with hashed := name :: s.hashed }

def unset (s : Session) (name : String) : Session :=
  { s with bindings := s.bindings.filter fun b => b.name ≠ name }

-- What a name stands for, to be brought back. A dash stands for the options.
def shadowing (s : Session) (name : String) : Option Binding :=
  if name = "-" then some ⟨name, some (String.ofList s.options), false, false⟩
  else s.binding? name

-- The session in which a name stands for what it stood for.
def restored (s : Session) (entry : String × Option Binding) : Session :=
  match entry.2 with
  | some b =>
      if entry.1 = "-" then { s with options := (b.value.getD "").toList } else s.setBinding b
  | none => s.unset entry.1

-- The shelf that a name stands on.
def shelf (name : String) : Nat :=
  let bytes := (Text.bytesOf name).map UInt8.toNat
  bytes.foldl (· + ·) (16 * bytes.headD 0) % 39

-- What a program that is started finds, shelf by shelf.
def environment (s : Session) : Environment :=
  let all := s.bindings.filterMap fun b =>
    if b.exported then b.value.map fun v => (b.name, v) else none
  all.mergeSort fun a b => shelf a.1 ≤ shelf b.1

def isOn (s : Session) (option : Char) : Bool :=
  s.options.contains option

def separators (s : Session) : String :=
  (s.value? "IFS").getD " \t\n"

-- The arguments as one text, with the first separator between them.
def joinedArgs (s : Session) : String :=
  String.intercalate (String.ofList (s.separators.toList.take 1)) s.args

-- The value of a parameter, if it is set.
def parameter? (s : Session) (name : String) : Option String :=
  match name.toNat? with
  | some 0 => some s.name
  | some (n + 1) => s.args[n]?
  | none =>
      if name = "?" then some (toString s.status)
      else if name = "#" then some (toString s.args.length)
      else if name = "$" then some (toString s.number)
      else if name = "!" then s.lastBackground.map toString
      else if name = "-" then
        some (String.ofList (s.options.reverse.filter Char.isAlpha))
      else if name = "@" ∨ name = "*" then
        if s.args.isEmpty then none else some s.joinedArgs
      else s.value? name

-- A message with the name of the script and the line in front.
def message (s : Session) (text : String) : String :=
  s.name ++ ": " ++ toString s.line ++ ": " ++
    (s.speaker.elim "" fun name => name ++ ": ") ++ text ++ "\n"

end Session

-- What a shell does, with the knowledge that it changes.
abbrev Step := ExceptT Flow (StateT Session Act)

namespace Step

def act (a : Act α) : Step α := ((a : Act α) : StateT Session Act α)

def setStatus (status : Nat) : Step Unit :=
  modify fun s => { s with status := status }

-- A message that does not end the command.
def warn (text : String) : Step Unit := do
  discard (act (Act.write 2 (Text.bytesOf ((← get).message text))))

-- A message that ends the command.
def fault (text : String) : Step α := do
  warn text
  setStatus 2
  throw .failed

-- Output of the shell itself, whose failure is a failure of the command.
def put (data : Bytes) : Step Unit := do
  match ← act (Act.write 1 data) with
  | .ok _ => pure ()
  | .error _ => do
      let s ← get
      warn ((s.speaker.getD "sh") ++ ": I/O error")
      setStatus 1

def say (text : String) : Step Unit :=
  put (Text.bytesOf text)

-- A message without the name of the script.
def remark (text : String) : Step Unit := do
  discard (act (Act.write 2 (Text.bytesOf (text ++ "\n"))))

-- A name is set, unless it is fixed.
def assign (name value : String) : Step Unit := do
  if ((← get).binding? name).any Binding.fixed then fault (name ++ ": is read only")
  else modify fun s => s.assign name value

end Step

end Conformance.Shell
