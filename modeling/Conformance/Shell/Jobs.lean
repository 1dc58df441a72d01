import Conformance.Shell.Condition
import Conformance.Shell.Letters

namespace Conformance.Shell

open Machine (Act Ending)

namespace Builtin

-- A number that is not negative and not too large.
def number (text : String) : Step Nat := do
  match Condition.integer text with
  | .ok n =>
      if 0 ≤ n ∧ n ≤ 2147483647 then pure n.toNat
      else Step.fault ("Illegal number: " ++ text)
  | .error _ => Step.fault ("Illegal number: " ++ text)

end Builtin

namespace Session

-- The session in which a process was seen to end.
def noting (s : Session) (number : Nat) (ending : Ending) : Session :=
  if s.jobs.any fun j => j.parts.any fun part => part.1 = number then
    { s with jobs := s.jobs.map (Job.noting number ending) }
  else { s with ended := (number, ending) :: s.ended }

-- The session without the first job of whose end the script knows.
def withRoom (s : Session) : Session :=
  let free := s.jobs.findIdx fun j => j.isOver && j.waited
  { s with jobs := s.jobs.modify free fun _ => ⟨[], true⟩ }

-- The session with another job, in the first place that is free.
def withJob (s : Session) (job : Job) : Session :=
  let s := s.withRoom
  let busy := s.jobs.takeWhile fun j => !j.parts.isEmpty
  { s with jobs := busy ++ job :: s.jobs.drop (busy.length + 1), lastBackground := some job.number }

-- The jobs with their numbers, the latest one first.
def numberedJobs (s : Session) : List (Nat × Job) :=
  let numbered := ((List.range s.jobs.length).map (· + 1)).zip s.jobs
  (numbered.filter fun entry => !entry.2.parts.isEmpty).mergeSort
    fun a b => b.2.number ≤ a.2.number

-- The job that a word means.
def job? (s : Session) (word : String) : Except String (Nat × Job) :=
  let jobs := s.numberedJobs
  match word.toList with
  | '%' :: name =>
      if name ∈ [[], ['+'], ['%']] then
        match jobs.head? with
        | some entry => .ok entry
        | none => .error "No current job"
      else if name = ['-'] then
        match jobs[1]? with
        | some entry => .ok entry
        | none => .error "No previous job"
      else
        match jobs.find? fun entry => some entry.1 = (String.ofList name).toNat? with
        | some entry => .ok entry
        | none => .error ("No such job: " ++ word)
  | _ => .error ("No such job: " ++ word)

end Session

-- What ended a process by force is told, unless it was to be expected.
def tellEnding (ending : Ending) : Step Unit := do
  match ending with
  | .killed signal =>
      if signal ≠ Machine.Signal.interrupt ∧ signal ≠ Machine.Signal.pipe then
        Step.remark (Machine.Signal.description signal)
  | .exited _ => pure ()

-- Waits until some processes have ended. What else ends meanwhile is noted.
def awaitAll : Nat → List Nat → Step Unit
  | 0, _ => throw .exits
  | _, [] => pure ()
  | fuel + 1, numbers => do
      match ← Step.act (Act.wait none .toTheEnd) with
      | none => pure ()
      | some (number, ending) => do
          modify fun s => s.noting number ending
          if numbers.contains number then tellEnding ending
          awaitAll fuel (numbers.filter (· ≠ number))

-- Waits for the processes of a command and takes the status of the last one.
def await (numbers : List Nat) : Step Unit := do
  modify Session.withRoom
  awaitAll Act.patience numbers
  let s ← get
  let ending := s.ended.find? fun entry => some entry.1 = numbers.getLast?
  set { s with ended := [] }
  Step.setStatus (ending.elim 127 fun entry => entry.2.status)

-- Notes what has ended by now.
def noteEnded : Nat → Step Unit
  | 0 => pure ()
  | fuel + 1 => do
      match ← Step.act (Act.wait none .notAtAll) with
      | none => pure ()
      | some (number, ending) => do
          modify fun s => s.noting number ending
          noteEnded fuel

namespace Job

def known (j : Job) : Job :=
  { j with waited := true }

-- How a job stands, in words.
def standing (j : Job) : String :=
  match j.ending? with
  | some (.exited 0) => "Done"
  | some (.exited status) => "Done(" ++ toString status ++ ")"
  | some (.killed signal) => Machine.Signal.description signal
  | none => "Running"

-- A job as it is listed, with the mark of its place among the latest ones.
def shown (letters : List Letter) (mark : Char) (entry : Nat × Job) : String :=
  let first := toString ((entry.2.parts.head?.map Prod.fst).getD 0)
  if Letter.has 'p' letters then first ++ "\n"
  else
    let gap (width : Nat) : String := String.ofList (List.replicate (max 1 width) ' ')
    let wide (text : String) : String := text ++ gap (33 - text.length)
    let front := "[" ++ toString entry.1 ++ "] " ++ String.ofList [mark] ++ " "
    let others := entry.2.parts.drop 1
    if Letter.has 'l' letters then
      wide (front ++ first ++ " " ++ standing entry.2) ++
        String.join (others.map fun part =>
          " |\n" ++ wide (gap front.length ++ toString part.1 ++ " ")) ++ "\n"
    else wide (front ++ standing entry.2) ++ String.join (others.map fun _ => " | ") ++ "\n"

end Job

namespace Builtin

-- Whether a signal came that the shell catches, and the status for it.
def interruption? : Step (Option Nat) := do
  let me ← Step.act Act.self
  pure (me.pending.head?.map (128 + ·))

-- Waits until some jobs are over, and gives the status for a signal that comes
-- first. How the processes of one job ended is told.
def waitJobs (told : Job → Bool) (wanted : Session → Bool) : Nat → Step (Option Nat)
  | 0 => pure none
  | fuel + 1 => do
      if wanted (← get) then pure none
      else match ← Step.act (Act.wait none .toSignal) with
        | none => interruption?
        | some (number, ending) => do
            modify fun s => s.noting number ending
            if (← get).jobs.any fun j => told j && j.parts.any fun part => part.1 = number then
              tellEnding ending
            waitJobs told wanted fuel

-- Waits for one job after the other, and takes the status of the last one.
def waitEach : List String → Step Unit
  | [] => pure ()
  | arg :: rest => do
      let job ← match arg.toList, (← get).job? arg with
        | '%' :: _, .ok entry => pure (some entry.2)
        | '%' :: _, .error text => Step.fault text
        | _, _ => do
            let pid ← number arg
            pure ((← get).jobs.find? fun j => j.number = pid && !j.parts.isEmpty)
      match job with
      | none => waitEach rest
      | some job => do
          let same (j : Job) : Bool := j.number = job.number
          match ← waitJobs same (fun s => s.jobs.any fun j => same j && j.isOver) Act.patience with
          | some status => Step.setStatus status
          | none => do
              modify fun s => { s with jobs := s.jobs.map fun j => if same j then j.known else j }
              let ending := ((← get).jobs.find? same).bind Job.ending?
              Step.setStatus (ending.elim 127 Ending.status)
              waitEach rest

def wait (args : List String) : Step Unit := do
  let (_, args) ← Letter.ofArgs "" args
  match args with
  | [] => do
      match ← waitJobs (fun _ => false) (fun s => s.jobs.all Job.isOver) Act.patience with
      | some status => Step.setStatus status
      | none => do
          modify fun s => { s with jobs := s.jobs.map Job.known }
          Step.setStatus 0
  | args => do
      Step.setStatus 127
      waitEach args

def jobs (args : List String) : Step Unit := do
  let (letters, args) ← Letter.ofArgs "lp" args
  if args.isEmpty then noteEnded Act.patience
  let all := (← get).numberedJobs
  let mark (entry : Nat × Job) : Char :=
    match ((all.takeWhile fun other => other.1 ≠ entry.1).filter fun other =>
        !other.2.isOver).length with
    | 0 => '+'
    | 1 => '-'
    | _ => ' '
  let chosen ← if args.isEmpty then pure all
    else args.mapM fun arg => do
      match (← get).job? arg with
      | .ok entry => pure entry
      | .error text => Step.fault text
  Step.setStatus 0
  Step.say (String.join (chosen.map fun entry => Job.shown letters (mark entry) entry))
  if !Letter.has 'p' letters then
    modify fun s => { s with jobs := s.jobs.map fun j =>
      if j.isOver && chosen.any fun entry => entry.2.number = j.number then ⟨[], true⟩ else j }

-- A job cannot be brought to the front or sent back by a script.
def moveJob (args : List String) : Step Unit := do
  let (_, args) ← Letter.ofArgs "" args
  match (← get).job? (args.headD "%") with
  | .error text => Step.fault text
  | .ok _ => Step.fault ("job " ++ args.headD "(null)" ++ " not created under job control")

-- The signal that a word names, from a lowest one on.
def signal? (lowest : Nat) (word : String) : Option Nat :=
  if word ≠ "" ∧ word.toList.all Char.isDigit then
    word.toNat?.filter fun n => n < Machine.Signal.limit
  else Machine.Signal.ofShownName? lowest word.toUpper

def killUsage : String :=
  "Usage: kill [-s sigspec | -signum | -sigspec] [pid | job]... or\nkill -l [exitstatus]"

-- The name of the signal behind a number or a status.
def nameSignal (args : List String) : Step Unit := do
  match args with
  | [] =>
      Step.setStatus 0
      Step.say ("0\n" ++ String.join (((List.range Machine.Signal.limit).drop 1).map fun n =>
        Machine.Signal.shownName n ++ "\n"))
  | arg :: _ => do
      let n ← number arg
      let n := if 128 < n then n - 128 else n
      if 0 < n ∧ n < Machine.Signal.limit then
        Step.setStatus 0
        Step.say (Machine.Signal.shownName n ++ "\n")
      else Step.fault ("invalid signal number or exit status: " ++ arg)

-- The process that a word of a command means, unless it is none of this shell.
def target (word : String) : Step (Option Nat) := do
  match word.toList with
  | '%' :: _ =>
      match (← get).job? word with
      | .ok _ => pure none
      | .error text => Step.fault text
  | '-' :: rest => do
      discard (number (String.ofList rest))
      pure none
  | _ => some <$> number word

def send (signal : Nat) (targets : List String) : Step Unit := do
  Step.setStatus 0
  targets.forM fun word => do
    let reached ← match ← target word with
      | some number => Step.act (Act.signal number signal)
      | none => pure false
    if !reached then
      Step.warn "No such process\n"
      Step.setStatus 1

def kill (args : List String) : Step Unit := do
  let direct? : Option Nat := match args.head?.map String.toList with
    | some ('-' :: word) => signal? 1 (String.ofList word)
    | _ => none
  match direct?, args with
  | _, [] => Step.fault killUsage
  | some signal, _ :: targets =>
      if targets.isEmpty then Step.fault killUsage else send signal targets
  | none, args => do
      let (letters, targets) ← if (args.headD "").startsWith "-" then Letter.ofArgs "ls:" args
        else pure ([], args)
      let named := letters.filter fun l => l.char = 's'
      let signals ← named.mapM fun l => do
        match signal? 1 l.value with
        | some signal => pure signal
        | none => Step.fault ("invalid signal number or name: " ++ l.value)
      if Letter.has 'l' letters then
        if signals.isEmpty then nameSignal targets else Step.fault killUsage
      else if targets.isEmpty then Step.fault killUsage
      else send (signals.getLast?.getD Machine.Signal.term) targets

def provide (signal : Nat) (action : Option String) : Step Unit := do
  modify fun s =>
    let others := s.traps.filter fun entry => entry.1 ≠ signal
    { s with traps := match action with
        | some action => others ++ [(signal, action)]
        | none => others }
  Step.act (Act.own fun me =>
    let ignored := me.ignored.filter (· ≠ signal)
    let caught := me.caught.filter (· ≠ signal)
    let me := match action with
      | none => { me with ignored := ignored, caught := caught }
      | some "" => { me with ignored := signal :: ignored, caught := caught }
      | some _ => { me with ignored := ignored, caught := signal :: caught }
    ((), me))

-- Provides for one signal after the other up to a word that names none.
def provideAll (action : Option String) : List String → Step Unit
  | [] => Step.setStatus 0
  | word :: rest => do
      match signal? 0 word with
      | some signal => do
          provide signal action
          provideAll action rest
      | none => do
          Step.remark ("trap: " ++ word ++ ": bad trap")
          Step.setStatus 1

end Builtin

end Conformance.Shell
