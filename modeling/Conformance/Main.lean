import Conformance.Calendar
import Conformance.CommandLine.Inputs
import Conformance.Machine
import Std.Time.DateTime.Timestamp

namespace Conformance.CommandLine

def bytes? (path : Path) : IO (Option Text.Bytes) := do
  try
    let data ← IO.FS.readBinFile path
    pure (some data.toList)
  catch _ => pure none

def bringAll (t : Tree) (cwd : Place) (paths : List Path) : IO Tree :=
  paths.foldlM (fun t path => do
    match ← bytes? path with
    | some data => pure (bringIn t cwd path data)
    | none => pure t) t

def bringOut (entry : Place × Node) : IO Unit :=
  let path := Tree.render entry.1
  match entry.2 with
  | .directory => IO.FS.createDirAll path
  | .file data _ => IO.FS.writeBinFile path ⟨data.toArray⟩
  | _ => pure ()

def stationAt (cwd : Place) (millis : Nat) : Station Unit :=
  let host : Host := {
    cwd := cwd
    temporary := "/tmp"
    freshEnd := Text.zeroPadded 6 (millis % 1000000)
    clock := fun _ => Calendar.timestamp (millis / 1000) (millis % 1000) }
  ⟨host, Machine.invoker host Machine.defaultIntervalMs, "run-" ++ toString (millis / 1000)⟩

end Conformance.CommandLine

open Conformance Conformance.CommandLine in
def main (args : List String) : IO UInt32 := do
  let now ← Std.Time.Timestamp.now
  let cwd := Tree.names (toString (← IO.currentDir))
  let station := stationAt cwd now.toMillisecondsSinceUnixEpoch.toInt.toNat
  let empty := ((Machine.withTools Tree.empty).makeDirectories [] (Tree.render cwd)).2
  let command := (Command.ofArguments args).toOption
  let named ← bringAll empty cwd ((command.map Command.inputs).getD [])
  let further := (command.map (Command.furtherInputs station ⟨named, ()⟩)).getD []
  let before ← bringAll named cwd further
  let (status, after) := execute station args ⟨before, ()⟩
  (differences before after.world.files).forM bringOut
  IO.print after.stdout
  IO.eprint after.stderr
  pure status.toUInt32
