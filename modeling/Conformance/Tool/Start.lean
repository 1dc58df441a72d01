import Conformance.Shell.Lookup
import Conformance.Tool.Streams

-- Programs that start other programs or reach those that run.
namespace Conformance.Tool

open Machine (Act Ending Environment Process)
open Text (Bytes)

-- Another program takes the place of this one. A file without an interpreter
-- is read by the shell. Gives why that failed.
def launch (environment : Environment) (name : String) (args : List String) : Act IoError := do
  let t ← Act.files
  let cwd ← Act.cwd
  let path := ((environment.find? fun entry => entry.1 = "PATH").map Prod.snd).getD
    Machine.usualPath
  match Machine.findProgram t cwd path name with
  | .error e => pure e
  | .ok p =>
      match ← Act.become p (name :: args) environment with
      | .notExecutableFormat => Act.become "/bin/sh" ("sh" :: p :: args) environment
      | e => pure e

def launchStatus (e : IoError) : Nat :=
  if e = .notFound then 127 else 126

-- A command in the place of this program, or the message that it cannot run.
def launchOrFail (environment : Environment) (name : String) (args : List String)
    (what : String) : Task Nat := do
  let e ← Task.act (launch environment name args)
  Task.fail (what ++ quoted name ++ ": " ++ e.reason) (launchStatus e)

-- A command as a process of its own.
def spawn (environment : Environment) (name : String) (args : List String) (what : String) :
    Task Nat := do
  let call ← read
  let child : Process := ((launchOrFail environment name args what call).run :
    Act (Except Nat Nat)) fun result =>
      match result with
      | .ok status => .done (.exited status)
      | .error status => .done (.exited status)
  Task.act (Act.fork child)

-- A name and its value, where an argument sets one.
def setting? (arg : String) : Option (String × String) :=
  let name := arg.toList.takeWhile (· ≠ '=')
  match arg.toList.drop name.length with
  | _ :: value => some (String.ofList name, String.ofList value)
  | [] => none

-- A command among changed names, or the names themselves.
def env : Task Nat := do
  let call ← read
  let given ← Task.arguments {
    flags := ['i', '0', 'v'], valued := ['u', 'C', 'S'], mixed := false, refusal := 125
    long := [("ignore-environment", 'i'), ("unset", 'u'), ("null", '0'), ("chdir", 'C'),
      ("split-string", 'S')] }
  let isBare := given.has 'i' || given.operands.head? = some "-"
  let operands := if given.operands.head? = some "-" then given.operands.drop 1
    else given.operands
  let start := if isBare then [] else call.environment
  let dropped := (given.options.filter fun o => o.1 = 'u').map Prod.snd
  let start := start.filter fun entry => !dropped.contains entry.1
  let settings := operands.takeWhile fun a => (setting? a).isSome
  let environment := settings.foldl (fun (all : Environment) arg =>
    match setting? arg with
    | some entry =>
        if all.any fun other => other.1 = entry.1 then
          all.map fun other => if other.1 = entry.1 then entry else other
        else all ++ [entry]
    | none => all) start
  let words := (given.value? 'S').elim [] fun text => (text.splitOn " ").filter (· ≠ "")
  if let some dir := given.value? 'C' then
    let moved ← Task.act (Act.change fun st me =>
      match st.files.locate me.cwd dir with
      | .ok place =>
          if st.files.isDirectory place then (true, st, { me with cwd := place })
          else (false, st, me)
      | .error _ => (false, st, me))
    if !moved then
      Task.fail ("cannot change directory to " ++ quoted dir ++ ": No such file or directory") 125
  match words ++ operands.drop settings.length with
  | [] => do
      let ending := if given.has '0' then "\x00" else "\n"
      environment.forM fun entry => Task.say (entry.1 ++ "=" ++ entry.2 ++ ending)
      pure 0
  | name :: args => launchOrFail environment name args ""

-- A command as it is, for programs that change nothing that shows. What is
-- told of a command that cannot be started depends on the program.
def through (g : Grammar) (needed : Given → Option String) (cannot : String → String) :
    Task Nat := do
  let call ← read
  let given ← Task.arguments g
  if let some fault := needed given then Task.refuse g fault
  match given.operands with
  | [] => pure 0
  | name :: args => do
      let e ← Task.act (launch call.environment name args)
      Task.fail (cannot name ++ ": " ++ e.reason) (launchStatus e)

def failedToRun (name : String) : String :=
  "failed to run command " ++ quoted name

def nohup : Task Nat :=
  through { mixed := false, refusal := 125 }
    (fun given => if given.operands.isEmpty then some "missing operand" else none) failedToRun

def stdbuf : Task Nat :=
  through {
      valued := ['i', 'o', 'e'], mixed := false, refusal := 125
      long := [("input", 'i'), ("output", 'o'), ("error", 'e')] }
    (fun given => if given.operands.isEmpty then some "missing operand"
      else if given.options.isEmpty then some "you must specify a buffering mode option"
      else none) failedToRun

def setsid : Task Nat := do
  Task.act Act.leadGroup
  through {
      flags := ['c', 'f', 'w'], mixed := false
      long := [("ctty", 'c'), ("fork", 'f'), ("wait", 'w')] }
    (fun given => if given.operands.isEmpty then some "no command specified" else none)
    fun name => "failed to execute " ++ name

-- A command with less urgency, which does not show. Without a command, the
-- usual urgency is told.
def nice : Task Nat := do
  let isAdjustment (a : String) : Bool := match a.toList with
    | '-' :: rest => !rest.isEmpty && rest.all Char.isDigit
    | _ => false
  let adapted (c : Call) : Call :=
    if isAdjustment (c.args.headD "") then
      { c with args := "-n" :: String.ofList ((c.args.headD "").toList.drop 1) :: c.args.drop 1 }
    else c
  ReaderT.adapt adapted do
    let g : Grammar := {
      valued := ['n'], mixed := false, refusal := 125, long := [("adjustment", 'n')] }
    let given ← Task.arguments g
    if let some text := given.value? 'n' then
      if text.toInt?.isNone then Task.fail ("invalid adjustment " ++ quoted text) 125
      if given.operands.isEmpty then Task.refuse g "a command must be given with an adjustment"
    if given.operands.isEmpty then Task.say "0\n"
    through g (fun _ => none) quoted

-- A command that a signal ends when its time is over.
def timeout : Task Nat := do
  let call ← read
  let given ← Task.arguments {
    flags := ['v'], valued := ['k', 's'], mixed := false, refusal := 125
    long := [("foreground", 'f'), ("preserve-status", 'p'), ("kill-after", 'k'),
      ("signal", 's'), ("verbose", 'v')] }
  let kill := Machine.Signal.kill
  let later ← match given.value? 'k' with
    | none => pure none
    | some text => (match duration? text with
        | some micros => pure (some micros)
        | none => Task.misuse (invalidInterval text) 125)
  let signal ← match given.value? 's' with
    | none => pure Machine.Signal.term
    | some word => (match Machine.Signal.ofWord? word with
        | some n => pure n
        | none => Task.misuse (quoted word ++ ": invalid signal") 125)
  match given.operands with
  | [] => Task.misuse "missing operand" 125
  | [_] => Task.misuse "missing operand" 125
  | length :: name :: args => do
      let some micros := duration? length
        | Task.misuse (invalidInterval length) 125
      if !given.has 'f' then Task.act Act.leadGroup
      let child ← spawn call.environment name args "failed to run command "
      let limit := match micros with
        | some 0 => none
        | micros => micros
      let told (number : Nat) : Act Unit :=
        if given.has 'v' then discard (Act.write 2 (Text.bytesOf (call.name ++
          ": sending signal " ++ (Machine.Signal.name? number).getD (toString number) ++
          " to command " ++ quoted name ++ "\n")))
        else pure ()
      let watch (length : Option Nat) (number : Nat) : Process :=
        (do
          Act.rest length
          told number
          discard (Act.signal child number) : Act Unit) fun _ => .done (.exited 0)
      let watcher ← Task.act (Act.fork (watch limit signal))
      let killer ← match later with
        | some (some more) =>
            some <$> Task.act (Act.fork (watch (limit.map (· + more)) kill))
        | _ => pure none
      let started ← Task.act Act.clock
      match ← Task.act (Act.wait (some child) .toTheEnd) with
      | none => pure 125
      | some (_, ending) => do
          discard (Task.act (Act.signal watcher kill))
          if let some killer := killer then discard (Task.act (Act.signal killer kill))
          let now ← Task.act Act.clock
          let isLate := limit.any fun limit => started + limit ≤ now
          match ending with
          | .exited n => pure (if isLate && !given.has 'p' then 124 else n)
          | .killed number =>
              -- what ends the command ends this program too, unless it was this
              -- program's own doing
              if !isLate || number = kill && !given.has 'f' then
                Task.act (Act.finish (.killed number))
              else pure (if given.has 'p' || number = kill then 128 + number else 124)

-- Sends a signal to processes.
def kill : Task Nat := do
  let args := (← read).args
  let send (signal : Nat) (targets : List String) : Task Nat :=
    Task.statusOf <$> Task.all targets fun target => do
      match target.toNat? with
      | none => do
          Task.warn ("failed to parse argument: " ++ quoted target)
          pure false
      | some number =>
          if ← Task.act (Act.signal number signal) then pure true
          else do
            Task.warn ("(" ++ target ++ "): No such process")
            pure false
  let sendNamed (word : String) (targets : List String) : Task Nat :=
    match Machine.Signal.ofWord? word with
    | some n => send n targets
    | none => Task.fail ("unknown signal name " ++ word) 1
  match args with
  | "-s" :: word :: targets => sendNamed word targets
  | "--" :: targets => send 15 targets
  | first :: targets =>
      match first.toList with
      | '-' :: word => sendNamed (String.ofList word) targets
      | _ => send 15 (first :: targets)
  | [] => Task.fail "not enough arguments" 1

-- The files that a name stands for, in the order in which they are looked for.
def programsNamed (t : Tree) (cwd : Place) (path name : String) : List Path :=
  let isProgram (p : Path) : Bool :=
    (Machine.runnable t cwd p).isOk && !t.leadsToDirectory cwd p
  if name.toList.contains '/' then [name].filter isProgram
  else if name = "" then []
  else ((path.splitOn ":").map fun dir =>
    Path.join (if dir = "" then "." else dir) name).filter isProgram

def which : Task Nat := do
  let call ← read
  let path := ((call.environment.find? fun entry => entry.1 = "PATH").map Prod.snd).getD
    Machine.usualPath
  let t ← Task.act Act.files
  let cwd ← Task.act Act.cwd
  let options := call.args.takeWhile fun a => a.startsWith "-" && a ≠ "--"
  let letters := options.flatMap fun o => o.toList.drop 1
  if let some c := letters.find? fun c => c ≠ 'a' && c ≠ 's' then
    discard (Task.act (Act.write 2 (Text.bytesOf ("Illegal option -" ++ String.ofList [c] ++
      "\nUsage: " ++ call.name ++ " [-as] args\n"))))
    throw 2
  let names := call.args.drop options.length
  let names := if names.head? = some "--" then names.drop 1 else names
  if names.isEmpty then pure 1
  else Task.statusOf <$> Task.all names fun name => do
    let found := programsNamed t cwd path name
    if !letters.contains 's' then
      (if letters.contains 'a' then found else found.take 1).forM fun p => Task.say (p ++ "\n")
    pure !found.isEmpty

end Conformance.Tool
