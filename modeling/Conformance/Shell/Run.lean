import Conformance.Shell.Builtin
import Conformance.Text.Lines

namespace Conformance.Shell

open Machine (Act Access Ending Process findProgram searchPath)
open Text (Bytes)

-- In which light a command is carried out: whether someone looks at its
-- status, and whether the shell has nothing to do behind it.
structure Light where
  tested : Bool := false
  last : Bool := false

namespace Light

def inside (l : Light) : Light := { l with last := false }

def looked : Light := { tested := true }

end Light

-- A stream as it was before a redirection, under a number of its own.
structure Kept where
  stream : Nat
  hidden : Option Nat

def keep (stream : Nat) : Act Kept :=
  Act.own fun me =>
    match me.opened? stream with
    | none => (⟨stream, none⟩, me)
    | some number =>
        let hidden := me.freeStream Machine.firstHidden
        (⟨stream, some hidden⟩, me.setStream hidden (some number))

def putBack (k : Kept) : Act Unit :=
  Act.own fun me =>
    match k.hidden with
    | none => ((), me.setStream k.stream none)
    | some hidden => ((), (me.setStream k.stream (me.opened? hidden)).setStream hidden none)

def release (k : Kept) : Act Unit :=
  match k.hidden with
  | none => pure ()
  | some hidden => Act.closeStream hidden

-- A text as a stream to be read.
def presentText (stream : Nat) (data : Bytes) : Act Unit :=
  Act.outline fun st me =>
    let (number, st) := st.addOpened { channel := .nameless data, reads := true }
    ((), st, me.setStream stream (some number))

def access? (sign : String) : Access :=
  if sign = "<" then .reading
  else if sign = ">>" then .appending
  else if sign = "<>" then .both
  else .writing

-- A stream that leads to a file from now on.
def direct (stream : Nat) (sign target : String) : Step Unit := do
  let cwd ← Step.act Act.cwd
  let guarded := sign = ">" && (← get).isOn 'C'
  let t ← if guarded then Step.act Act.files else pure Tree.empty
  let isThere := match Condition.nodeAt? t cwd target with
    | some (.file _ _) => true
    | _ => false
  if guarded && isThere then
    Step.fault ("cannot create " ++ target ++ ": File exists")
  else
    match ← Step.act (Act.openFile Machine.firstHidden target (access? sign)) with
    | .ok source => do
        discard (Step.act (Act.copyStream source stream))
        Step.act (Act.closeStream source)
    | .error e =>
        if sign = "<" then Step.fault ("cannot open " ++ target ++ ": " ++ openReason e)
        else Step.fault ("cannot create " ++ target ++ ": " ++ createReason e)

-- A stream that leads where another one does, or nowhere.
def copy (stream : Nat) (source : String) : Step Unit := do
  match source.toList with
  | ['-'] => Step.act (Act.closeStream stream)
  | [c] =>
      if c.isDigit then
        match ← Step.act (Act.copyStream (c.toNat - 48) stream) with
        | .ok _ => pure ()
        | .error e => Step.fault (source ++ ": " ++ e.reason)
      else do
        Step.warn "Syntax error: Bad fd number"
        Step.setStatus 2
        throw .exits
  | _ => do
      Step.warn "Syntax error: Bad fd number"
      Step.setStatus 2
      throw .exits

def Redirection.stream : Redirection → Nat
  | .file stream _ _ => stream
  | .copy stream _ => stream
  | .here stream _ => stream

def redirectOne (gather : Gather) : Redirection → Step Unit
  | .file stream sign target => do direct stream sign (← expandWhole gather target)
  | .copy stream source => do copy stream (← expandWhole gather source)
  | .here stream body => do
      let text ← expandWhole gather body
      Step.act (presentText stream (Text.bytesOf text))

-- What was opened before some redirections, latest first.
def redirectAll (gather : Gather) : List Kept → List Redirection → Step (List Kept)
  | kept, [] => pure kept
  | kept, r :: rest => do
      let isKept := kept.any fun k => k.stream = r.stream
      let kept ← if isKept then pure kept else do
        let k ← Step.act (keep r.stream)
        pure (k :: kept)
      try
        redirectOne gather r
      catch flow => do
        kept.forM fun k => Step.act (putBack k)
        throw flow
      redirectAll gather kept rest

-- A part of a script between redirections and their end.
def redirected (gather : Gather) (rs : List Redirection) (inner : Step Unit) : Step Unit := do
  let kept ← redirectAll gather [] rs
  try
    inner
  catch flow => do
    kept.forM fun k => Step.act (putBack k)
    throw flow
  kept.forM fun k => Step.act (putBack k)

-- A process that begins where this one is and has its own knowledge.
def offspring (s : Session) (inner : Step Unit) : Process :=
  let s := { s with traps := s.traps.filter fun entry => entry.2 = "", jobs := [], ended := [] }
  let start : Step Unit := do
    Step.act (Act.own fun me => ((), { me with caught := [], pending := [] }))
    inner
  (start.run.run s) fun (_, s) => .done (.exited (s.status % 256))

-- The line that shows a command before it is carried out.
def trace (kept : List Kept) (assigned : List (String × String)) (words : List String) :
    Step Unit := do
  let s ← get
  if s.isOn 'x' then
    let shown := assigned.map (fun entry => entry.1 ++ "=" ++ entry.2) ++ words
    let stream := ((kept.find? fun k => k.stream = 2).bind Kept.hidden).getD 2
    let mark := (s.value? "PS4").getD "+ "
    discard (Step.act (Act.write stream
      (Text.bytesOf (mark ++ String.intercalate " " shown ++ "\n"))))

-- Names that are set one after the other, each before the next value is found.
def assignEach (gather : Gather) (exported : Bool) :
    List (String × Word) → Step (List (String × String))
  | [] => pure []
  | (name, w) :: rest => do
      let value ← expandAssigned gather w
      Step.assign name value
      if exported then
        modify fun s => match s.binding? name with
          | some b => s.setBinding { b with exported := true }
          | none => s
      pure ((name, value) :: (← assignEach gather exported rest))

-- Names that stand for something else while a command runs.
def withAssigned (gather : Gather) (assigned : List (String × Word))
    (inner : List (String × String) → Step Unit) : Step Unit := do
  let s ← get
  let old := assigned.map fun entry => (entry.1, s.binding? entry.1)
  let restore : Step Unit := old.forM fun entry =>
    modify fun (s : Session) => s.restored entry
  try
    inner (← assignEach gather true assigned)
  catch flow => do
    restore
    throw flow
  restore

-- What a loop does with what its body leaves undone: goes on or ends.
def throughLoop (body : Step Unit) : Step Bool := do
  modify fun s => { s with loops := s.loops + 1 }
  let leaveLoop : Step Unit := modify fun s => { s with loops := s.loops - 1 }
  try
    body
    leaveLoop
    pure true
  catch flow => do
    leaveLoop
    match flow with
    | .broken 1 => pure false
    | .continued 1 => pure true
    | .broken (n + 1) => throw (.broken n)
    | .continued (n + 1) => throw (.continued n)
    | flow => throw flow

-- The traps of this shell, for those that come while they are carried out.
def takePending : Act (List Nat) :=
  Act.own fun me => (me.pending, { me with pending := [] })

-- What a part of a command gives, unless it goes wrong.
def attempt (inner : Step α) : Step (Option α) := do
  try
    some <$> inner
  catch flow => if flow = .failed then pure none else throw flow

-- The script that a path leads to. A directory is an empty one.
def readScript (t : Tree) (cwd : Place) (p : Path) : Except IoError String :=
  match t.readBytes cwd p with
  | .ok data => .ok (Text.lossy data)
  | .error .isADirectory => .ok ""
  | .error e => .error e

-- How many functions may be called from one another.
def deepestCall : Nat := 12000

-- A failure of a command that does not end the script.
def forgiving (inner : Step Unit) : Step Unit := do
  try
    inner
  catch flow => if flow = .failed then pure () else throw flow

mutual

-- A command. Its status is that of the session behind it.
def run : Nat → Light → Command → Step Unit
  | 0, _, _ => throw .exits
  | fuel + 1, light, c => do
      if (← get).isOn 'n' then return
      match c with
      | .nothing => pure ()
      | .sequence first second => do
          run fuel light.inside first
          run fuel light second
      | .both first second => do
          run fuel Light.looked first
          if (← get).status = 0 then run fuel light second
      | .either first second => do
          run fuel Light.looked first
          if (← get).status ≠ 0 then run fuel light second
      | .negated inner => do
          run fuel Light.looked inner
          Step.setStatus (if (← get).status = 0 then 1 else 0)
      | .branch condition yes no => do
          run fuel Light.looked condition
          if (← get).status = 0 then run fuel light yes
          else
            Step.setStatus 0
            run fuel light no
      | .each line name words body => do
          modify fun s => { s with line := line }
          let values ← match words with
            | none => pure (← get).args
            | some words => expandWords (gather fuel) words
          Step.setStatus 0
          each fuel light.inside name body values
      | .loop truth condition body => repeatWhile fuel light.inside truth condition body 0
      | .choice line subject cases => do
          modify fun s => { s with line := line }
          let text ← expandWhole (gather fuel) subject
          choose fuel light text cases
      | .define name body => do
          modify fun s => { s with
            functions := (name, body) :: s.functions.filter fun f => f.1 ≠ name }
          Step.setStatus 0
      | .piped parts => do
          await (← startPipes fuel light false none parts)
          settle fuel light
      | .background inner => do
          let numbers ← match inner with
            | .piped parts => startPipes fuel {} true none parts
            | inner => startPipes fuel {} true none [inner]
          modify fun (s : Session) => s.withJob ⟨numbers.map fun n => (n, none), false⟩
          Step.setStatus 0
      | .group line true body rs => do
          modify fun s => { s with line := line }
          let s ← get
          let inner : Step Unit := do
            discard (redirectAll (gather fuel) [] rs)
            run fuel { light with last := true } body
          if light.last && s.traps.isEmpty then
            inner
          else
            await [← Step.act (Act.fork (offspring s (conclude fuel inner)))]
          settle fuel light
      | .group line false body rs => do
          modify fun s => { s with line := line }
          if rs.isEmpty then run fuel light body
          else
            forgiving do
              redirected (gather fuel) rs do
                try
                  run fuel light.inside body
                catch flow => throw (if flow = .failed then .exits else flow)
      | .simple line assigned words rs => do
          Step.act Act.turn
          modify fun s => { s with line := line, outputStatus := none }
          simple fuel light assigned words rs
          settle fuel light

-- What is due behind a command: the actions for signals that came, and the
-- end of a script that is to end with its first failure.
def settle : Nat → Light → Step Unit
  | 0, _ => pure ()
  | fuel + 1, light => do
      let s ← get
      if !s.traps.isEmpty then
        let signals ← Step.act takePending
        signals.forM fun signal =>
          match s.traps.find? fun entry => entry.1 = signal with
          | some (_, action) => do
              let status := (← get).status
              runText fuel {} action
              Step.setStatus status
          | none => pure ()
      if s.isOn 'e' && !light.tested && s.status ≠ 0 then throw .exits

def each : Nat → Light → String → Command → List String → Step Unit
  | 0, _, _, _, _ => throw .exits
  | _, _, _, _, [] => pure ()
  | fuel + 1, light, name, body, value :: rest => do
      Step.assign name value
      if ← throughLoop (run fuel light body) then each fuel light name body rest

-- A loop whose last round had some status.
def repeatWhile : Nat → Light → Bool → Command → Command → Nat → Step Unit
  | 0, _, _, _, _, _ => throw .exits
  | fuel + 1, light, truth, condition, body, status => do
      let goesOn ← throughLoop do
        run fuel Light.looked condition
        if ((← get).status == 0) == truth then
          Step.setStatus 0
          run fuel light body
        else
          Step.setStatus status
          throw (.broken 1)
      if goesOn then repeatWhile fuel light truth condition body (← get).status

def choose : Nat → Light → String → List (List Word × Command) → Step Unit
  | 0, _, _, _ => throw .exits
  | _, _, _, [] => Step.setStatus 0
  | fuel + 1, light, text, (patterns, body) :: rest => do
      if ← fitsAny fuel text patterns then
        Step.setStatus 0
        run fuel light body
      else choose fuel light text rest

def fitsAny : Nat → String → List Word → Step Bool
  | 0, _, _ => pure false
  | _, _, [] => pure false
  | fuel + 1, text, w :: rest => do
      let pattern ← expandPattern (gather fuel) w
      if Glob.fits pattern text.toList then pure true else fitsAny fuel text rest

-- Starts the parts of a pipeline, each reading what the one before it writes.
-- In the background they pay no heed to the keyboard.
def startPipes : Nat → Light → Bool → Option Nat → List Command → Step (List Nat)
  | 0, _, _, _, _ => throw .exits
  | _, _, _, _, [] => pure []
  | fuel + 1, light, inBackground, input, c :: rest => do
      let s ← get
      let ends ← if rest.isEmpty then pure none else some <$> Step.act Act.makePipe
      let child := offspring s (conclude fuel do
        if inBackground then
          Step.act (Act.own fun me => ((), { me with ignored := 2 :: 3 :: me.ignored }))
          if input.isNone then direct 0 "<" "/dev/null"
        if let some source := input then
          discard (Step.act (Act.copyStream source 0))
          Step.act (Act.closeStream source)
        if let some (source, target) := ends then
          Step.act (Act.closeStream source)
          discard (Step.act (Act.copyStream target 1))
          Step.act (Act.closeStream target)
        run fuel { light with last := true } c)
      let number ← Step.act (Act.fork child)
      if let some source := input then Step.act (Act.closeStream source)
      if let some (_, target) := ends then Step.act (Act.closeStream target)
      let numbers ← startPipes fuel light inBackground (ends.map Prod.fst) rest
      pure (number :: numbers)

-- What a command writes.
def gather : Nat → Command → Step String
  | 0, _ => throw .exits
  | fuel + 1, c => do
      let s ← get
      let (source, target) ← Step.act Act.makePipe
      let child := offspring s (conclude fuel do
        Step.act (Act.closeStream source)
        discard (Step.act (Act.copyStream target 1))
        Step.act (Act.closeStream target)
        run fuel { last := true } c)
      let number ← Step.act (Act.fork child)
      Step.act (Act.closeStream target)
      let data ← Step.act (Act.readAll source)
      Step.act (Act.closeStream source)
      await [number]
      let status := (← get).status
      modify fun s' => { s' with status := s.status, outputStatus := some status }
      pure (Text.lossy ((data.toOption.getD []).filter (· ≠ 0)))

-- A simple command: words, redirections, assignments, in this order.
def simple : Nat → Light → List (String × Word) → List Word → List Redirection → Step Unit
  | 0, _, _, _, _ => throw .exits
  | fuel + 1, light, assigned, words, rs => do
      let values ← expandCommand (gather fuel) words
      match values with
      | [] =>
          if let some kept ← attempt (redirectAll (gather fuel) [] rs) then
            kept.forM fun k => Step.act (putBack k)
            let entries ← assignEach (gather fuel) false assigned
            if !entries.isEmpty then trace [] entries []
            Step.setStatus ((← get).outputStatus.getD 0)
      | "exec" :: args => do
          let kept ← redirectAll (gather fuel) [] rs
          let entries ← assignEach (gather fuel) (!args.isEmpty) assigned
          trace kept entries values
          kept.forM fun k => Step.act (release k)
          match args with
          | [] => Step.setStatus 0
          | name :: args =>
              modify fun s => { s with speaker := some "exec" }
              becomeProgram fuel name args
              throw .exits
      | name :: args => do
          let s ← get
          let body? := (s.functions.find? fun f => f.1 = name).map Prod.snd
          let isSpecial := Parser.specialNames.contains name
          let plainly (kept : List Kept) : Step Unit := do
            if isSpecial then
              let entries ← assignEach (gather fuel) false assigned
              trace kept entries values
              speaking name (special fuel light name args)
            else withAssigned (gather fuel) assigned fun entries => do
              trace kept entries values
              match body? with
              | some body => call fuel light body args
              | none =>
                  match Builtin.table.find? fun b => b.1 = name with
                  | some (_, builtin) => forgiving (speaking name (builtin args))
                  | none =>
                      if name = "command" then forgiving (bypass fuel light args)
                      else start fuel light name args
          let opened := redirectAll (gather fuel) [] rs
          let kept? ← if isSpecial then some <$> opened else attempt opened
          if let some kept := kept? then
            try
              plainly kept
            catch flow => do
              kept.forM fun k => Step.act (putBack k)
              throw flow
            kept.forM fun k => Step.act (putBack k)

-- A command of the shell, in whose name messages are given.
def speaking : String → Step Unit → Step Unit
  | name, inner => do
      let before := (← get).speaker
      modify fun s => { s with speaker := some name }
      let fallBack : Step Unit := modify fun s => { s with speaker := before }
      try
        inner
      catch flow => do
        fallBack
        throw flow
      fallBack

-- The commands that change what the shell goes on with.
def special : Nat → Light → String → List String → Step Unit
  | 0, _, _, _ => throw .exits
  | fuel + 1, light, name, args => do
      if name = "eval" then
        Step.setStatus 0
        runText fuel light.inside (String.intercalate " " args)
      else if name = "." then
        match (← Letter.ofArgs "" args).2 with
        | [] => Step.setStatus 0
        | path :: _ => source fuel path
      else match Builtin.table.find? fun b => b.1 = name with
        | some (_, builtin) => builtin args
        | none => Step.setStatus 0

-- A file as a part of the script.
def source : Nat → String → Step Unit
  | 0, _ => throw .exits
  | fuel + 1, path => do
      let s ← get
      let t ← Step.act Act.files
      let cwd ← Step.act Act.cwd
      let isFile (p : Path) : Bool := match Condition.nodeAt? t cwd p with
        | some (.file _ _) => true
        | _ => false
      let found := if path.toList.contains '/' then some path
        else ((searchPath s.path).map fun dir => Path.join dir path).find? isFile
      match found with
      | none => Step.fault (path ++ ": not found")
      | some p =>
          match readScript t cwd p with
          | .error e => Step.fault ("cannot open " ++ p ++ ": " ++ openReason e)
          | .ok script => do
              Step.setStatus 0
              try
                speaking p (runFile fuel script)
              catch flow => if flow = .returned then pure () else throw flow

-- A function of the script.
def call : Nat → Light → Command → List String → Step Unit
  | 0, _, _, _ => throw .exits
  | fuel + 1, light, body, args => do
      let outer ← get
      if outer.functionDepth ≥ deepestCall then
        Step.act (Act.finish (.killed Machine.Signal.segmentation))
      set { outer with
        args := args, loops := 0, functionDepth := outer.functionDepth + 1
        shadowed := [] :: outer.shadowed, optionOffset := 0 }
      let restore : Step Unit := modify fun s =>
        let s := (s.shadowed.headD []).foldl Session.restored s
        { s with
          args := outer.args, loops := outer.loops, functionDepth := outer.functionDepth
          shadowed := outer.shadowed, optionOffset := outer.optionOffset }
      try
        run fuel light.inside body
      catch flow => do
        if flow ≠ .returned then
          restore
          throw flow
      restore

-- A command without regard to functions.
def bypass : Nat → Light → List String → Step Unit
  | 0, _, _ => throw .exits
  | fuel + 1, light, args => do
      let before := (← get).speaker
      modify fun s => { s with speaker := some "command" }
      let (letters, args) ← Letter.ofArgs "pvV" args
      modify fun s => { s with speaker := before }
      let asked := letters.filter fun l => l.char ≠ 'p'
      match asked.getLast?, args with
      | _, [] => Step.setStatus 0
      | some l, name :: _ => do
          Step.setStatus 0
          Builtin.describe (l.char = 'V') name
      | none, "exec" :: name :: rest => do
          becomeProgram fuel name rest
          throw .exits
      | none, "command" :: rest => bypass fuel light rest
      | none, name :: rest => do
          if Parser.specialNames.contains name then
            speaking name (special fuel light name rest)
          else match Builtin.table.find? fun b => b.1 = name with
            | some (_, builtin) => speaking name (builtin rest)
            | none => start fuel light name rest

-- A program in a process of its own, or in this one when nothing follows.
def start : Nat → Light → String → List String → Step Unit
  | 0, _, _, _ => throw .exits
  | fuel + 1, light, name, args => do
      let s ← get
      let t ← Step.act Act.files
      let cwd ← Step.act Act.cwd
      match findProgram t cwd s.path name with
      | .error e => do
          Step.warn (name ++ ": " ++ runReason e)
          Step.setStatus 127
      | .ok _ =>
          modify fun (s : Session) => s.remembering name
          if light.last && s.traps.isEmpty then
            becomeProgram fuel name args
            throw .exits
          else await [← Step.act (Act.fork (offspring s (becomeProgram fuel name args)))]

-- A program in the place of this shell. A file without an interpreter is read
-- as a script.
def becomeProgram : Nat → String → List String → Step Unit
  | 0, _, _ => throw .exits
  | fuel + 1, name, args => do
      let s ← get
      let t ← Step.act Act.files
      let cwd ← Step.act Act.cwd
      let failed (e : IoError) : Step Unit := do
        Step.warn (name ++ ": " ++ runReason e)
        Step.setStatus (runStatus e)
        throw .exits
      match findProgram t cwd s.path name with
      | .error e => failed e
      | .ok path =>
          match ← Step.act (Act.become path (name :: args) s.environment) with
          | .notExecutableFormat =>
              match t.readBytes cwd path with
              | .ok data => do
                  set { s with
                    name := path, args := args, functions := [], traps := [], status := 0, line := 1
                    bindings := s.bindings.filter Binding.exported, speaker := none, loops := 0
                    functionDepth := 0, shadowed := [], aliases := [], hashed := [] }
                  conclude fuel (runFile fuel (Text.lossy data))
                  throw .exits
              | .error e => failed e
          | e => failed e

-- A script, line by line: what is wrong in a line shows when it is reached.
def runText : Nat → Light → String → Step Unit
  | 0, _, _ => throw .exits
  | fuel + 1, light, script => runLines fuel light #[] (Input.ofScript script 1)

-- A script whose lines are shown as they are reached, when that is asked for.
def runFile : Nat → String → Step Unit
  | 0, _ => throw .exits
  | fuel + 1, script =>
      runLines fuel {} (Text.linesWithEnds script).toArray (Input.ofScript script 1)

def runLines : Nat → Light → Array String → Input → Step Unit
  | 0, _, _, _ => throw .exits
  | fuel + 1, light, shown, input => do
      let s ← get
      let show? (until? : Option Nat) : Step Unit := do
        if s.isOn 'v' then
          let last := until?.getD shown.size
          let lines := (shown.toList.take last).drop (input.line - 1)
          discard (Step.act (Act.write 2 (Text.bytesOf (String.join lines))))
      match ({ input with aliases := s.aliases } : Input).line? with
      | .error e => do
          show? (some e.line)
          modify fun s => { s with line := e.line }
          Step.warn ("Syntax error: " ++ e.error.message)
          Step.setStatus 2
          throw .failed
      | .ok none => show? none
      | .ok (some (c, atEnd, rest)) => do
          show? (if atEnd then none else some (rest.line - 1))
          run fuel { light with last := light.last && atEnd } c
          if !atEnd then runLines fuel light shown rest

-- The end of a shell: its trap for that is carried out.
def conclude : Nat → Step Unit → Step Unit
  | 0, _ => throw .exits
  | fuel + 1, inner => do
      try
        inner
      catch _ => pure ()
      let s ← get
      match s.traps.find? fun entry => entry.1 = 0 with
      | none => pure ()
      | some (_, action) => do
          set { s with traps := s.traps.filter fun entry => entry.1 ≠ 0 }
          try
            runText fuel {} action
            Step.setStatus s.status
          catch _ => pure ()

end

end Conformance.Shell
