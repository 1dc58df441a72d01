import Conformance.Tool.Lines
import Conformance.Tool.Sed.Parser

namespace Conformance.Tool.Sed

open Machine (Act Access)
open Text (Bytes)

-- Where lines come from: files to be opened, an open one, and lines that were
-- read ahead, each with whether a line feed ended it.
structure Source where
  paths : List Path
  name : String := "-"
  stream : Option Nat := none
  partLine : Bytes := []
  lines : List (Bytes × Bool) := []
  status : Nat := 0
  -- why nothing more can be read
  broken : Option String := none

-- What goes out at the end of a cycle.
inductive Later where
  | text (data : Bytes)
  | file (path : String)

-- How the editor was called.
structure Setting where
  silent : Bool := false
  -- what ends a line
  mark : UInt8 := 10
  width : Nat := 70
  -- all output is kept
  keeps : Bool := false

-- What the editor knows while it runs.
structure State where
  source : Source
  pattern : Bytes := []
  ended : Bool := true
  hold : Bytes := []
  holdEnded : Bool := true
  line : Nat := 0
  -- the ranges that are open, by the places of their commands, with the line
  -- that ends them if that is known
  ranges : List (Nat × Option Nat) := []
  later : List Later := []
  replaced : Bool := false
  -- the last pattern that was used
  used : Option (Regex × Regex.Manner) := none
  out : List Bytes := []
  setting : Setting := {}
  -- the outputs, by path, that end in a line that is not ended
  unended : List String := []
  streams : List (String × Nat) := []
  -- lines of files that are read one by one
  readers : List (String × List Bytes) := []

-- Reads on until a line is there or nothing more comes.
def refill (mark : UInt8) : Nat → Source → Task Source
  | 0, s => pure s
  | fuel + 1, s => do
      if !s.lines.isEmpty then pure s
      else match s.stream, s.paths with
        | none, [] => pure s
        | none, p :: rest =>
            if p = "-" then refill mark fuel { s with name := p, stream := some 0, paths := rest }
            else match ← Task.act (Act.openFile 3 p .reading) with
              | .ok stream => refill mark fuel { s with
                  name := p, stream := some stream, paths := rest }
              | .error e => do
                  Task.warn ("can't read " ++ p ++ ": " ++ e.reason)
                  refill mark fuel { s with paths := rest, status := 2 }
        | some stream, _ => do
            match ← Task.act (Act.read stream Act.blockSize) with
            | .error e =>
                pure { s with broken := some ("read error on " ++ s.name ++ ": " ++ e.reason) }
            | .ok [] => do
                if stream ≠ 0 then Task.act (Act.closeStream stream)
                let s := { s with stream := none }
                if s.partLine.isEmpty then refill mark fuel s
                else pure { s with partLine := [], lines := [(s.partLine, false)] }
            | .ok data => do
                let (lines, isOpen) := splitMarked mark (s.partLine ++ data)
                let whole := if isOpen then lines.dropLast else lines
                refill mark fuel { s with
                  lines := whole.map fun line => (line, true)
                  partLine := if isOpen then lines.getLastD [] else [] }

-- How much output is kept before it is written.
def keptOutput : Nat := 256

def flush : StateT State Task Unit := do
  let s ← get
  if !s.setting.keeps then
    Task.putOr 4 s.out.reverse.flatten
    set { s with out := [] }

def fill : StateT State Task Unit := do
  let s ← get
  let source ← refill s.setting.mark Act.patience s.source
  set { s with source := source }
  if let some text := source.broken then
    flush
    Task.fail text 4

def atLastLine : StateT State Task Bool := do
  fill
  pure (← get).source.lines.isEmpty

-- The next line, if there is one.
def nextLine : StateT State Task (Option (Bytes × Bool)) := do
  fill
  let s ← get
  match s.source.lines with
  | [] => pure none
  | line :: rest => do
      set { s with
        line := s.line + 1, replaced := false, source := { s.source with lines := rest } }
      pure (some line)

-- Writes to one of the outputs. The first one has no path.
def sendTo (path : String) (data : Bytes) : StateT State Task Unit := do
  if path = "" ∨ path = "/dev/stdout" then
    modify fun s => { s with out := data :: s.out }
    if (← get).out.length > keptOutput then flush
  else match (← get).streams.find? fun entry => entry.1 = path with
    | some (_, stream) => discard (Task.act (Act.write stream data))
    | none => pure ()

-- Ends the line that was left open in an output.
def endLine (path : String) : StateT State Task Unit := do
  let s ← get
  if s.unended.contains path then
    set { s with unended := s.unended.filter (· ≠ path) }
    sendTo path [s.setting.mark]

-- Adds a line to an output.
def emitTo (path : String) (data : Bytes) (ended : Bool) : StateT State Task Unit := do
  endLine path
  let s ← get
  sendTo path (data ++ if ended then [s.setting.mark] else [])
  if !ended then modify fun s => { s with unended := path :: s.unended }

def emit (data : Bytes) : StateT State Task Unit :=
  emitTo "" data true

-- Data that has its own line ends.
def emitRaw (data : Bytes) : StateT State Task Unit := do
  endLine ""
  sendTo "" data

def emitPattern : StateT State Task Unit := do
  let s ← get
  emitTo "" s.pattern s.ended

-- Gives out what was kept for the end of the cycle.
def emitLater : StateT State Task Unit := do
  let items := (← get).later
  modify fun s => { s with later := [] }
  items.forM fun item => do
    match item with
    | .text data => emitRaw data
    | .file path => do
        match ← Task.input path with
        | .ok data => emitRaw data
        | .error .isADirectory => do
            flush
            Task.fail ("read error on " ++ path ++ ": Is a directory") 4
        | .error _ => pure ()

-- Whether a pattern is found in the line, and it as the last one used.
def search (p : Pattern) (place : Nat) : StateT State Task (Option Regex.Match) := do
  let s ← get
  match p, s.used with
  | .of r _ m, _ => do
      set { s with used := some (r, m) }
      pure (r.find? m s.pattern place)
  | .last, some (r, m) => pure (r.find? m s.pattern place)
  | .last, none => Task.fail "no previous regular expression" 1

def holdsAt (a : Address) : StateT State Task Bool := do
  let s ← get
  match a with
  | .line n => pure (s.line = n)
  | .steps first 0 => pure (s.line = first)
  | .steps first step => pure (first ≤ s.line && (s.line - first) % step = 0)
  | .lastLine => atLastLine
  | .pattern p => do pure (← search p 0).isSome

def setRange (place : Nat) (stop : Option (Option Nat)) : StateT State Task Unit :=
  modify fun s =>
    let others := s.ranges.filter fun r => r.1 ≠ place
    { s with ranges := match stop with
        | some line => (place, line) :: others
        | none => others }

-- Whether a range that is open goes on over this line. It may end here.
def continues (place : Nat) (stop : Stop) (known : Option Nat) : StateT State Task Bool := do
  let s ← get
  match stop, known with
  | .address (.line n), _ => do
      if n ≤ s.line then setRange place none
      pure (s.line ≤ n)
  | _, some n => do
      if n ≤ s.line then setRange place none
      pure (s.line ≤ n)
  | .address a, none => do
      if ← holdsAt a then setRange place none
      pure true
  | _, none => pure true

-- Whether a command at some place is for this line.
def selects (place : Nat) (chosen : Selection) : StateT State Task Bool := do
  match chosen with
  | .every => pure true
  | .one a => holdsAt a
  | .range first stop => do
      let s ← get
      match s.ranges.find? fun r => r.1 = place with
      | some (_, known) => continues place stop known
      | none =>
          if !(← holdsAt first) then pure false
          else do
            let line := (← get).line
            match stop with
            | .address (.line n) => if line < n then setRange place (some (some n))
            | .more n => if 0 < n then setRange place (some (some (line + n)))
            | .multiple n =>
                if n ≠ 0 && line % n ≠ 0 then
                  setRange place (some (some ((line / n + 1) * n)))
            | .address _ => setRange place (some none)
            pure true

-- A replacement under way: how case changes from now on, how it changes for
-- one letter, and what was made, latest first.
structure Written where
  mode : Casing := .none
  once : Option Casing := none
  out : List Bytes := []

def cased (c : Casing) (b : UInt8) : UInt8 :=
  match c with
  | .upper => if 97 ≤ b && b ≤ 122 then b - 32 else b
  | .nextUpper => if 97 ≤ b && b ≤ 122 then b - 32 else b
  | .lower => if 65 ≤ b && b ≤ 90 then b + 32 else b
  | .nextLower => if 65 ≤ b && b ≤ 90 then b + 32 else b
  | .none => b

def Written.add (w : Written) (data : Bytes) : Written :=
  match w.once, data with
  | some c, b :: rest =>
      { w with once := none, out := (cased c b :: rest.map (cased w.mode)) :: w.out }
  | _, data => { w with out := data.map (cased w.mode) :: w.out }

def replacementFor (line : Bytes) (m : Regex.Match) (pieces : List Piece) : Bytes :=
  (pieces.foldl (fun (w : Written) piece => match piece with
    | .text data => w.add data
    | .group n => w.add (m.text line n)
    | .casing .nextUpper => { w with once := some .nextUpper }
    | .casing .nextLower => { w with once := some .nextLower }
    | .casing c => { w with mode := c, once := none }) {}).out.reverse.flatten

-- The matches of a substitution, one behind the other, and what the line
-- becomes, latest part first.
def replaceFrom (u : Substitution) (line : Bytes) :
    Nat → Nat → Nat → Option Nat → List Bytes → StateT State Task (List Bytes × Bool)
  | 0, _, _, _, done => pure (done, false)
  | fuel + 1, start, count, lastStop, done => do
      let rest := (line.drop start) :: done
      if line.length < start then pure (done, false)
      else match ← search u.pattern start with
        | none => pure (rest, false)
        | some m =>
            let between := (line.take m.start).drop start
            let nextByte := (line.drop m.stop).take 1
            let isEmpty := m.start = m.stop
            let after := if isEmpty then m.stop + 1 else m.stop
            if isEmpty && lastStop = some m.start then
              replaceFrom u line fuel after count none (nextByte :: between :: done)
            else if count + 1 < u.first then
              let kept := m.text line 0
              replaceFrom u line fuel after (count + 1) (some m.stop)
                ((if isEmpty then nextByte else []) :: kept :: between :: done)
            else
              let made := replacementFor line m u.replacement
              let done := (if isEmpty then nextByte else []) :: made :: between :: done
              if u.all then do
                let (parts, _) ← replaceFrom u line fuel after (count + 1) (some m.stop) done
                pure (parts, true)
              else pure (line.drop after :: done, true)

def substitute (u : Substitution) : StateT State Task Unit := do
  let line := (← get).pattern
  let (parts, replaced) ← replaceFrom u line (line.length + 2) 0 0 none []
  if replaced then
    modify fun s => { s with
      pattern := parts.reverse.flatten, replaced := true }
    if u.prints then emitPattern
    if let some path := u.file then
      let s ← get
      emitTo path s.pattern s.ended

-- A line in a form that shows all its bytes, cut at some width unless that is
-- zero.
def listed (width : Nat) (data : Bytes) : Bytes :=
  let shown (b : UInt8) : Bytes :=
    let letters : List (UInt8 × Char) := [(92, '\\'), (7, 'a'), (8, 'b'), (12, 'f'), (10, 'n'),
      (13, 'r'), (9, 't'), (11, 'v')]
    match letters.find? fun l => l.1 = b with
    | some (_, c) => [92, c.toNat.toUInt8]
    | none =>
        if 32 ≤ b && b < 127 then [b]
        else [92, 48 + b / 64, 48 + b / 8 % 8, 48 + b % 8]
  let (out, _) := data.foldl (fun (state : List Bytes × Nat) b =>
    let piece := shown b
    if width ≠ 0 ∧ state.2 + piece.length > width - 1 then
      (piece :: [92, 10] :: state.1, piece.length)
    else (piece :: state.1, state.2 + piece.length)) ([], 0)
  out.reverse.flatten ++ [36]

-- What follows from the commands for a line.
inductive Outcome where
  -- the line is shown, unless that was turned off
  | finished
  | deleted
  -- the commands begin again with what is left of the line
  | again
  | quits (status : Nat) (prints : Bool)

section

variable (script : Script)

-- The next line of a file that is read line by line, with its end.
def nextOf (path : String) : StateT State Task (Option Bytes) := do
  let s ← get
  let mark := s.setting.mark
  let lines ← match s.readers.find? fun r => r.1 = path with
    | some (_, lines) => pure lines
    | none => do
        match ← Task.input path with
        | .ok data =>
            let (lines, isOpen) := splitMarked mark data
            let whole := if isOpen then lines.dropLast else lines
            let last := if isOpen then lines.getLast?.toList else []
            pure (whole.map (· ++ [mark]) ++ last)
        | .error _ => pure []
  let others := s.readers.filter fun r => r.1 ≠ path
  modify fun s => { s with readers := (path, lines.drop 1) :: others }
  pure lines.head?

-- The commands from one place on.
def execute : Nat → Nat → StateT State Task Outcome
  | 0, _ => pure .finished
  | fuel + 1, place => do
      match script[place]? with
      | none => pure .finished
      | some c => do
          let chosen ← selects place c.selection
          if chosen = c.negated then
            match c.action with
            | .opens behind => execute fuel (behind + 1)
            | _ => execute fuel (place + 1)
          else do
            let goOn (change : State → State) : StateT State Task Outcome := do
              modify change
              execute fuel (place + 1)
            let s ← get
            let mark := s.setting.mark
            match c.action with
            | .opens _ => execute fuel (place + 1)
            | .closes => execute fuel (place + 1)
            | .label => execute fuel (place + 1)
            | .jump target => execute fuel (target.getD script.size)
            | .jumpIfReplaced truth target => do
                set { s with replaced := false }
                if s.replaced = truth then execute fuel (target.getD script.size)
                else execute fuel (place + 1)
            | .append text => goOn fun s => { s with later := s.later ++ [.text text] }
            | .insert text => do
                emitRaw text
                execute fuel (place + 1)
            | .change text => do
                let stillOpen := s.ranges.any fun r => r.1 = place
                if !stillOpen || c.negated then emitRaw text
                pure .deleted
            | .delete => pure .deleted
            | .deleteLine =>
                if s.pattern.contains mark then do
                  set { s with pattern := (s.pattern.dropWhile (· ≠ mark)).drop 1 }
                  pure .again
                else pure .deleted
            | .get => goOn fun s => { s with pattern := s.hold, ended := s.holdEnded }
            | .getMore => goOn fun s => { s with
                pattern := s.pattern ++ mark :: s.hold, ended := s.holdEnded }
            | .hold => goOn fun s => { s with hold := s.pattern, holdEnded := s.ended }
            | .holdMore => goOn fun s => { s with
                hold := s.hold ++ mark :: s.pattern, holdEnded := s.ended }
            | .exchange => goOn fun s => { s with
                pattern := s.hold, ended := s.holdEnded, hold := s.pattern, holdEnded := s.ended }
            | .next =>
                if ← atLastLine then pure (.quits 0 true)
                else do
                  if !s.setting.silent then emitPattern
                  emitLater
                  match ← nextLine with
                  | none => pure .deleted
                  | some (line, ended) => goOn fun s => { s with pattern := line, ended := ended }
            | .nextMore =>
                if ← atLastLine then pure (.quits 0 true)
                else do
                  emitLater
                  match ← nextLine with
                  | none => pure .finished
                  | some (line, ended) => goOn fun s => { s with
                      pattern := s.pattern ++ mark :: line, ended := ended }
            | .print => do
                emitPattern
                execute fuel (place + 1)
            | .printLine => do
                emit (s.pattern.takeWhile (· ≠ mark))
                execute fuel (place + 1)
            | .printNumber => do
                emitRaw (Text.bytesOf (toString s.line ++ "\n"))
                execute fuel (place + 1)
            | .printName => do
                emit (Text.bytesOf s.source.name)
                execute fuel (place + 1)
            | .list width => do
                emitRaw (listed (width.getD s.setting.width) s.pattern ++ [10])
                execute fuel (place + 1)
            | .quit status prints => pure (.quits status prints)
            | .readFile path => goOn fun s => { s with later := s.later ++ [.file path] }
            | .readLine path => do
                match ← nextOf path with
                | none => execute fuel (place + 1)
                | some line => goOn fun s => { s with
                    later := s.later ++ [.text line] }
            | .writeFile path => do
                emitTo path s.pattern s.ended
                execute fuel (place + 1)
            | .writeLine path => do
                emitTo path (s.pattern.takeWhile (· ≠ mark)) true
                execute fuel (place + 1)
            | .substitute u => do
                substitute u
                execute fuel (place + 1)
            | .transliterate pairs => goOn fun s => { s with
                pattern := s.pattern.map fun b =>
                  ((pairs.find? fun p => p.1 = b).map Prod.snd).getD b }
            | .empty => goOn fun s => { s with pattern := [] }

-- Line after line. Gives the status.
def cycles : Nat → Bool → StateT State Task Nat
  | 0, _ => pure 0
  | fuel + 1, fresh => do
      let line? ← if fresh then nextLine else do
        let s ← get
        pure (some (s.pattern, s.ended))
      match line? with
      | none => pure (← get).source.status
      | some (line, ended) => do
          modify fun s => { s with pattern := line, ended := ended }
          let silent := (← get).setting.silent
          match ← execute script Act.patience 0 with
          | .finished => do
              if !silent then emitPattern
              emitLater
              cycles fuel true
          | .deleted => do
              emitLater
              cycles fuel true
          | .again => do
              emitLater
              cycles fuel false
          | .quits status prints => do
              if prints && !silent then emitPattern
              if prints then emitLater
              let kept := (← get).source.status
              pure (if status = 0 then kept else status)

end

-- Ranges that begin before the first line.
def openRanges (script : Script) : List (Nat × Option Nat) :=
  (script.toList.zipIdx.filterMap fun entry => match entry.1.selection with
    | .range (.line 0) _ => some (entry.2, none)
    | _ => none)

-- Runs a script over some files. Gives the output that was kept, and the
-- status.
def runOn (script : Script) (setting : Setting) (streams : List (String × Nat))
    (paths : List Path) : Task (Bytes × Nat) := do
  let state : State := {
    source := { paths := paths }, ranges := openRanges script, streams := streams
    setting := setting }
  let (status, s) ← (do
    let status ← cycles script Act.patience true
    flush
    pure status : StateT State Task Nat).run state
  pure (s.out.reverse.flatten, status)

-- Puts what a script makes of a file in its place. The old file is kept under
-- a name of its own, when there is a suffix for it.
def editInPlace (script : Script) (setting : Setting) (streams : List (String × Nat))
    (suffix : String) (p : Path) : Task Nat := do
  match ← look true p with
  | .error e => do
      Task.warn ("can't read " ++ p ++ ": " ++ e.reason)
      pure 2
  | .ok (place, .file data executable) => do
      let (out, status) ← runOn script { setting with keeps := true } streams [p]
      let name := if suffix.toList.contains '*' then
          String.intercalate (Naming.lastPart p) (suffix.splitOn "*")
        else p ++ suffix
      if suffix ≠ "" then discard (changeFiles fun t cwd => t.write cwd name data)
      changeStore fun st => { st with files := st.files.set place (.file out executable) }
      pure status
  | .ok _ => do
      Task.warn ("couldn't edit " ++ p ++ ": not a regular file")
      pure 4

def grammar : Grammar := {
  flags := ['n', 'E', 'r', 's', 'u', 'z', 'b', 'p', 'S', 'F']
  valued := ['e', 'f', 'l'], attached := ['i']
  long := [("quiet", 'n'), ("silent", 'n'), ("expression", 'e'), ("file", 'f'),
    ("regexp-extended", 'E'), ("in-place", 'i'), ("separate", 's'), ("unbuffered", 'u'),
    ("null-data", 'z'), ("line-length", 'l'), ("binary", 'b'), ("posix", 'p'), ("sandbox", 'S'),
    ("follow-symlinks", 'F')] }

-- A part of a script, and the file that it is from if it is from one.
structure Part where
  file : Option String
  text : Bytes

-- Where in the parts of a script a place is.
def located : Nat → List Part → Nat → String
  | n, [], place => "-e expression #" ++ toString n ++ ", char " ++ toString place
  | n, part :: rest, place =>
      if part.text.length + 1 < place ∧ !rest.isEmpty then
        located (if part.file.isSome then n else n + 1) rest (place - part.text.length - 1)
      else match part.file with
        | some name =>
            let line := ((part.text.take (place - 1)).filter (· = 10)).length + 1
            "file " ++ name ++ " line " ++ toString line
        | none =>
            let place := if rest.isEmpty then place else min place part.text.length
            "-e expression #" ++ toString n ++ ", char " ++ toString place

-- The commands of all parts of a script.
def draftsOf (given : Given) (first : Option String) : Task (List Draft) := do
  let parts ← match first with
    | some text => pure [⟨none, Text.bytesOf text⟩]
    | none =>
        (given.options.filter fun o => o.1 = 'e' || o.1 = 'f').mapM fun o => do
          if o.1 = 'e' then pure (⟨none, Text.bytesOf o.2⟩ : Part)
          else match ← Task.input o.2 with
            | .ok data => pure ⟨some o.2, if data.getLast? = some 10 then data.dropLast else data⟩
            | .error e => Task.fail ("couldn't open file " ++ o.2 ++ ": " ++ e.reason) 4
  let extended := given.has 'E' || given.has 'r'
  match parse extended (given.has 'S') ((parts.map Part.text).intersperse [10]).flatten with
  | .ok drafts => pure drafts
  | .error f => Task.fail (located 1 parts f.place ++ ": " ++ f.text) 1

end Sed

open Machine (Act) in
-- The stream editor.
def sed : Task Nat := do
  let given ← Task.arguments Sed.grammar
  let hasScript := given.has 'e' || given.has 'f'
  if !hasScript && given.operands.isEmpty then
    Task.refuse { form := "[OPTION]... \x7bscript-only-if-no-other-script\x7d [input-file]..." }
      "no script specified"
  else do
    let first := if hasScript then none else given.operands.head?
    let drafts ← Sed.draftsOf given first
    let isQuiet := (first.getD ((given.value? 'e').getD "")).startsWith "#n\n"
    let setting : Sed.Setting := {
      silent := given.has 'n' || isQuiet
      mark := if given.has 'z' then 0 else 10
      width := ((given.value? 'l').bind String.toNat?).getD 70 }
    match Sed.settled drafts with
    | .error label => Task.fail ("can't find label for jump to \x60" ++ label ++ "'") 4
    | .ok script => do
        let streams ← script.written.filterMapM fun path => do
          if path = "/dev/stdout" then pure none
          else if path = "/dev/stderr" then pure (some (path, 2))
          else match ← Task.act (Act.openFile 3 path .writing) with
            | .ok stream => pure (some (path, stream))
            | .error e => Task.fail ("couldn't open file " ++ path ++ ": " ++ e.reason) 4
        let paths := if hasScript then given.operands else given.operands.drop 1
        if given.has 'i' then
          let suffix := (given.value? 'i').getD ""
          let statuses ← paths.mapM fun p => Sed.editInPlace script setting streams suffix p
          pure (statuses.foldl max 0)
        else if given.has 's' then
          let statuses ← paths.mapM fun p => do
            pure (← Sed.runOn script setting streams [p]).2
          pure (statuses.foldl max 0)
        else do
          let paths := if paths.isEmpty then ["-"] else paths
          pure (← Sed.runOn script setting streams paths).2

end Conformance.Tool
