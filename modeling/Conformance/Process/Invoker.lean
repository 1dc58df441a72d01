import Conformance.Files.Tree
import Conformance.Process.Invocation

namespace Conformance

-- What a run finds around it and does not change.
structure Host where
  -- where relative paths start
  cwd : Place
  -- where scratch directories go when nothing else is said
  temporary : Path
  -- the end of a name that is not in use yet
  freshEnd : String
  -- the text of the time at which the n-th thing is dated
  clock : Nat → String
  -- what the n-th piece of text for the standard output fails with, and that for the errors
  stdoutFault? : Nat → Option IoError := fun _ => none
  stderrFault? : Nat → Option IoError := fun _ => none
  -- what writing into the file at a place fails with
  fileFault? : Place → Option IoError := fun _ => none

namespace Host

def cwdPath (host : Host) : Path :=
  Tree.render host.cwd

-- The same as long as the directory is still there.
def currentDirectory (host : Host) (t : Tree) : Except IoError Path :=
  if t.isDirectory host.cwd then .ok host.cwdPath else .error .notFound

-- What writing into an open file fails with. A device that is full takes nothing.
def failure? (host : Host) (place : Place) (t : Tree) : Option IoError :=
  match host.fileFault? place, t.node? place with
  | some e, _ => some e
  | none, some (.device .full) => some .noSpace
  | none, _ => none

-- Data for a file that was opened empty. Only a write that is made can fail.
def fill (host : Host) (place : Place) (data : Text.Bytes) (t : Tree) :
    Except IoError Unit × Tree :=
  match host.failure? place t with
  | some e => if data = [] then (.ok (), t) else (.error e, t)
  | none => (.ok (), t.writeAt place 0 data)

end Host

-- What a run changes: files, and what the tools that it calls keep.
structure World (σ : Type) where
  files : Tree
  tools : σ

-- What carries out invocations. It may change the world also when it fails.
abbrev Invoker (σ : Type) :=
  Invocation → World σ → Except InvokeError InvocationResult × World σ

-- The same invoker with a note of all that it was asked for, in order.
def recording (invoker : Invoker σ) : Invoker (σ × List Invocation) := fun i w =>
  let (result, after) := invoker i ⟨w.files, w.tools.1⟩
  (result, ⟨after.files, (after.tools, w.tools.2 ++ [i])⟩)

def truncationMark : String := "[...truncated]\n"

-- The last bytes of a capture, at most as many as the limit, as text. A mark
-- tells that something was left out.
def tailOf (limit : Nat) (data : Text.Bytes) : String :=
  if limit < data.length then truncationMark ++ Text.lossy (data.drop (data.length - limit))
  else Text.lossy data

-- A capture that is missing or cannot be read counts as empty.
def captureTail (t : Tree) (cwd : Place) (p : Path) (limit : Nat) : String :=
  match t.readBytes cwd p with
  | .ok data => tailOf limit data
  | .error _ => ""

end Conformance
