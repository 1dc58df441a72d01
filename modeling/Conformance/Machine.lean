import Conformance.Machine.Watch
import Conformance.Shell.Start
import Conformance.Tool.Batch
import Conformance.Tool.Checksum
import Conformance.Tool.Condition
import Conformance.Tool.Difference
import Conformance.Tool.Dump
import Conformance.Tool.Expr
import Conformance.Tool.Fields
import Conformance.Tool.Find
import Conformance.Tool.Grep
import Conformance.Tool.Number
import Conformance.Tool.Sort
import Conformance.Tool.Places
import Conformance.Tool.Sed.Run
import Conformance.Tool.Start
import Conformance.Tool.Translate

namespace Conformance

-- The programs that come with the system, by name.
def Tool.table : List (String × Task Nat) := [
  ("[", bracket), ("basename", basename), ("cat", cat), ("chmod", chmod), ("cmp", cmp),
  ("cp", cp), ("cut", cut), ("dd", dd), ("diff", diff), ("dirname", dirname), ("echo", echo),
  ("egrep", grepAs 'E'), ("env", env), ("expr", expr), ("false", pure 1), ("fgrep", grepAs 'F'),
  ("find", find), ("grep", grepAs 'G'), ("head", head), ("kill", kill), ("ln", ln), ("ls", ls),
  ("mkdir", mkdir), ("mv", mv), ("nice", nice), ("nl", nl), ("nohup", nohup),
  ("od", od), ("paste", paste), ("printenv", printenv), ("printf", printf), ("pwd", pwd),
  ("readlink", readlink), ("realpath", realpath), ("rev", rev), ("rm", rm), ("rmdir", rmdir),
  ("sed", sed), ("seq", seq), ("setsid", setsid), ("sha256sum", sha256sum), ("sleep", sleep),
  ("sort", sort), ("stdbuf", stdbuf), ("sync", pure 0), ("tac", tac),
  ("tail", tail), ("tee", tee), ("test", test), ("timeout", timeout), ("touch", touch), ("tr", tr),
  ("true", pure 0), ("truncate", truncate), ("uname", uname), ("uniq", uniq), ("wc", wc),
  ("which", which), ("xargs", xargs), ("yes", yes)]

namespace Machine

-- The names of the shell.
def shellNames : List String :=
  ["sh", "dash"]

-- What runs under each name of a program.
def programs : Programs := fun name =>
  if shellNames.contains name then some Shell.program
  else (Tool.table.find? fun tool => tool.1 = name).map fun tool => Tool.Task.process tool.2

-- The time until a process does its first thing.
def firstTurn : Nat := 1000

def environment : Environment := [("PATH", usualPath), ("HOME", "/root")]

-- What the streams of an invocation lead to: nothing comes in, and what goes
-- out is dropped or goes to files that are made empty.
def streams (host : Host) (i : Invocation) (st : Store) :
    Except InvokeError (List OpenFile) × Store :=
  let nothing (reads : Bool) : OpenFile :=
    { channel := .device .null, reads := reads, writes := !reads }
  match i.output with
  | .discard => (.ok [nothing true, nothing false, nothing false], st)
  | .capture stdout stderr =>
      match st.openForWriting host.cwd stdout .writing with
      | .error e => (.error (.captureFile stdout e), st)
      | .ok (out, st) =>
          match st.openForWriting host.cwd stderr .writing with
          | .error e => (.error (.captureFile stderr e), st)
          | .ok (err, st) => (.ok [nothing true, out, err], st)

-- How large one argument may be.
def maxArgBytes : Nat := 131071

def checkTexts (i : Invocation) : Except IoError Unit :=
  let texts := i.program :: i.args ++ i.currentDir.toList
  if texts.any fun s => s.toList.contains '\x00' then
    .error (.other "nul byte found in provided data")
  else if texts.any fun s => maxArgBytes < s.utf8ByteSize then .error .argumentsTooLong
  else .ok ()

def workingPlace (host : Host) (t : Tree) (dir : Option Path) : Except IoError Place :=
  match dir with
  | none => .ok host.cwd
  | some dir => do
      let place ← t.locate host.cwd dir
      t.checkDirectory place
      .ok place

-- A machine in which the invoked program is about to begin, or why it is not.
def start (host : Host) (i : Invocation) (opened : List OpenFile) (st : Store) :
    Except IoError Kernel := do
  checkTexts i
  let cwd ← workingPlace host st.files i.currentDir
  let path ← findProgram st.files cwd usualPath i.program
  let (name, args) ← resolve st.files cwd maxInterpreters path (i.program :: i.args)
  match programs name with
  | none => .error .notExecutableFormat
  | some program =>
      let st := opened.foldl (fun st f => (st.addOpened f).2) st
      let me : Self := {
        number := mainNumber, parent := parentNumber, group := mainNumber, cwd := cwd
        streams := (List.range opened.length).map fun n => (n, n) }
      .ok ⟨st, [{ self := me, process := program args environment, wakes := firstTurn }],
        mainNumber + 1⟩

def launchFailure (program : String) : IoError → Status
  | .notFound => .launchFailed ("program_not_found program=" ++ program)
  | e => .launchFailed ("spawn_failed error=" ++ e.message)

-- Carries out invocations with the tools and scripts that are among the files.
def invoker (host : Host) (intervalMs : Nat) : Invoker σ := fun i w =>
  match streams host i { files := w.files } with
  | (.error e, st) => (.error e, { w with files := st.files })
  | (.ok opened, st) =>
      match start host i opened st with
      | .error e => (.ok ⟨launchFailure i.program e, 0⟩, { w with files := st.files })
      | .ok k =>
          let (result, st) := await programs host intervalMs i k
          (result, { w with files := st.files })

def defaultIntervalMs : Nat := 10

-- Directories that every machine has, its devices and its programs.
def withTools (t : Tree) : Tree :=
  let top := ["boot", "dev", "etc", "home", "media", "mnt", "opt", "proc", "root", "run", "srv",
    "sys", "tmp", "usr", "var"]
  let below := ["bin", "include", "lib", "local", "sbin", "share", "src"].map fun name =>
    ["usr", name]
  let dirs : List Place := top.map (fun name => [name]) ++ below ++
    [["usr", "local", "bin"], ["usr", "local", "lib"], ["usr", "local", "sbin"], ["var", "tmp"]]
  let devices : List (String × Device) := [("null", .null), ("zero", .zeros), ("full", .full)]
  let names := shellNames ++ Tool.table.map Prod.fst
  let nodes : List (Place × Node) := dirs.map (fun dir => (dir, .directory)) ++
    [(["bin"], .link "usr/bin"), (["lib"], .link "usr/lib"), (["sbin"], .link "usr/sbin")] ++
    devices.map (fun device => (["dev", device.1], .device device.2)) ++
    names.map fun name => (["usr", "bin", name], .tool name)
  ⟨(t.nodes.filter fun entry => !nodes.any fun other => other.1 = entry.1) ++ nodes⟩

end Machine

end Conformance
