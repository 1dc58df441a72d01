import Conformance.Machine.Process

namespace Conformance.Machine

open Text (Bytes)

-- A process in the machine. One that has ended stays until its parent asks
-- for it.
structure Entry where
  self : Self
  process : Process
  -- rests up to this time
  wakes : Nat := 0
  stopped : Bool := false

-- What is run when a program of the system is started.
abbrev Programs := String → Option (List String → Environment → Process)

-- The processes of a machine, in the order of their turns.
structure Kernel where
  store : Store
  entries : List Entry
  nextNumber : Nat

namespace Entry

def ending? (e : Entry) : Option Ending :=
  match e.process with
  | .done ending => some ending
  | _ => none

-- The entry with what it does next, unless it has ended.
def goingOn (next : Process) (e : Entry) : Entry :=
  if e.ending?.isSome then e else { e with process := next }

def holds (opened : Nat) (e : Entry) : Bool :=
  e.ending?.isNone && e.self.streams.any fun entry => entry.2 = opened

end Entry

-- Where programs are looked for when nothing else is said.
def usualPath : String := "/usr/local/sbin:/usr/local/bin:/usr/sbin:/usr/bin:/sbin:/bin"

-- The directories that a search goes through.
def searchPath (path : String) : List Path :=
  path.splitOn ":"

-- Whether what stands at a path can be run.
def runnable (t : Tree) (cwd : Place) (p : Path) : Except IoError Unit := do
  let place ← t.locate cwd p
  match t.node? place with
  | none => .error .notFound
  | some (.tool _) => .ok ()
  | some (.file _ true) => if Path.endsWithSlash p then .error .notADirectory else .ok ()
  | some _ => .error .permissionDenied

-- The first path under which a program of some name can be run.
def findIn (t : Tree) (cwd : Place) (dirs : List Path) (name : String) : Except IoError Path :=
  dirs.foldr (fun dir other =>
    let p := if dir = "" then name else Path.join dir name
    match runnable t cwd p with
    | .ok _ => .ok p
    | .error .permissionDenied =>
        match other with
        | .ok p => .ok p
        | .error _ => .error .permissionDenied
    | .error _ => other) (.error .notFound)

def maxName : Nat := 255

-- A name with a slash is a path, another one is looked up.
def findProgram (t : Tree) (cwd : Place) (path name : String) : Except IoError Path :=
  if name.toList.contains '/' then .ok name
  else if name = "" then .error .notFound
  else if maxName < name.utf8ByteSize then .error .nameTooLong
  else findIn t cwd (searchPath path) name

-- How much of a first line counts.
def maxFirstLine : Nat := 254

-- What the first line of a script names: its interpreter, and one argument.
-- An interpreter that is cut off is none.
def interpreterOf (data : Bytes) : Option (List String) :=
  let isGap (b : UInt8) : Bool := b = 32 || b = 9
  match data with
  | 35 :: 33 :: rest =>
      let start := rest.take maxFirstLine
      let line := (start.takeWhile (· ≠ 10)).dropWhile isGap
      let path := line.takeWhile fun b => !isGap b && b ≠ 0
      let argument := (line.drop path.length).dropWhile isGap
      let argument := (argument.reverse.dropWhile isGap).reverse
      let isCut := start.length = maxFirstLine && !start.contains 10 && path = line
      if path.isEmpty || isCut then none
      else some (Text.lossy path :: if argument.isEmpty then [] else [Text.lossy argument])
  | _ => none

-- How many interpreters may stand behind one another.
def maxInterpreters : Nat := 5

-- The program that a path leads to, and the arguments it gets.
def resolve (t : Tree) (cwd : Place) : Nat → Path → List String →
    Except IoError (String × List String)
  | depth, path, args => do
      let place ← t.locate cwd path
      match t.node? place with
      | none => .error .notFound
      | some (.tool name) => .ok (name, args)
      | some (.file data executable) =>
          if Path.endsWithSlash path then .error .notADirectory
          else if !executable then .error .permissionDenied
          else match interpreterOf data, depth with
            | none, _ => .error .notExecutableFormat
            | some [], _ => .error .notExecutableFormat
            | some _, 0 => .error .tooManyLinks
            | some (interpreter :: more), depth + 1 =>
                resolve t cwd depth interpreter (interpreter :: more ++ path :: args.drop 1)
      | some _ => .error .permissionDenied

namespace Kernel

-- How long a turn takes, and how long it takes until a new process has its
-- first one.
def turnMicros : Nat := 5
def startMicros : Nat := 400

-- How many bytes are moved in a microsecond.
def bytesPerMicro : Nat := 256

-- The kernel at the time at which some bytes have been moved.
def afterMoving (count : Nat) (k : Kernel) : Kernel :=
  { k with store := { k.store with clock := k.store.clock + count / bytesPerMicro } }

-- How many bytes a pipe holds.
def pipeSize : Nat := 65536

-- The kernel with an entry behind all others.
def withLast (k : Kernel) (e : Entry) : Kernel :=
  { k with entries := k.entries ++ [e] }

def isPipeEnd (pipe : Nat) (writes : Bool) (f : OpenFile) : Bool :=
  f.channel = .pipe pipe && (if writes then f.writes else f.reads)

-- Whether some process can still use one end of a pipe.
def pipeIsUsed (k : Kernel) (e : Entry) (pipe : Nat) (writes : Bool) : Bool :=
  k.store.opened.any fun entry => isPipeEnd pipe writes entry.2 &&
    (e.holds entry.1 || k.entries.any (Entry.holds entry.1))

-- What a signal does to an entry.
def struck (signal : Nat) (e : Entry) : Entry :=
  if e.ending?.isSome then e
  else if e.self.ignored.contains signal && !Signal.isSovereign signal then e
  else if e.self.caught.contains signal && !Signal.isSovereign signal then
    { e with self := { e.self with pending := e.self.pending ++ [signal] } }
  else match Signal.effect signal with
    | .nothing => e
    | .continues => { e with stopped := false }
    | .stops => { e with stopped := true }
    | .ends => { e with process := .done (.killed signal), wakes := 0, stopped := false }

-- A signal for the entries of some kind.
def strike (signal : Nat) (isMeant : Entry → Bool) (k : Kernel) : Kernel :=
  { k with entries := k.entries.map fun e => if isMeant e then struck signal e else e }

-- A process that has ended is forgotten. One that goes on is waited for in vain.
def reap (number : Nat) (k : Kernel) : Except IoError Unit × Kernel :=
  if k.entries.any fun e => e.self.number = number && e.ending?.isNone then
    (.error (.other "the process does not end"), k)
  else (.ok (), { k with entries := k.entries.filter fun e => e.self.number ≠ number })

-- The first child that has ended, of those that are asked for.
def endedChild? (k : Kernel) (parent : Nat) (child : Option Nat) : Option (Nat × Ending) :=
  k.entries.findSome? fun e =>
    if e.self.parent = parent && child.all (· = e.self.number) then
      e.ending?.map fun ending => (e.self.number, ending)
    else none

def hasChild (k : Kernel) (parent : Nat) (child : Option Nat) : Bool :=
  k.entries.any fun e => e.self.parent = parent && child.all (· = e.self.number)

-- Open files that no process holds are forgotten once they are many.
def tidy (k : Kernel) : Kernel :=
  if k.store.opened.length < 48 then k
  else { k with store := { k.store with
    opened := k.store.opened.filter fun f => k.entries.any (Entry.holds f.1) } }

-- A read from a pipe, which waits for data as long as any may come.
def readPipe (k : Kernel) (e : Entry) (pipe size : Nat)
    (next : Except IoError Bytes → Process) : Option Kernel :=
  match k.store.pipeData pipe with
  | [] =>
      if k.pipeIsUsed e pipe true then none
      else some (k.withLast { e with process := next (.ok []) })
  | data =>
      let taken := data.take size
      some (({ k with store := k.store.setPipe pipe (data.drop size) }.withLast
        { e with process := next (.ok taken) }).afterMoving taken.length)

-- A write into a pipe, as much as there is room for. Where no one reads, the
-- process gets a signal.
def writePipe (k : Kernel) (e : Entry) (pipe stream : Nat) (data : Bytes)
    (next : Except IoError Unit → Process) : Option Kernel :=
  if !k.pipeIsUsed e pipe false then
    some (k.withLast ((struck Signal.pipe e).goingOn (next (.error .brokenPipe))))
  else
    let old := k.store.pipeData pipe
    let room := pipeSize - old.length
    if room = 0 then none
    else
      let k := { k with store := k.store.setPipe pipe (old ++ data.take room) }
      match data.drop room with
      | [] => some (k.withLast { e with process := next (.ok ()) })
      | rest => some (k.withLast { e with process := .write stream rest next })

def readStream (k : Kernel) (e : Entry) (stream size : Nat)
    (next : Except IoError Bytes → Process) : Option Kernel :=
  match (e.self.opened? stream).bind fun n => (k.store.openFile? n).map (n, ·) with
  | none => some (k.withLast { e with process := next (.error .badDescriptor) })
  | some (number, f) =>
      match f.channel with
      | .pipe pipe =>
          if f.reads then k.readPipe e pipe size next
          else some (k.withLast { e with process := next (.error .badDescriptor) })
      | _ =>
          let (result, store) := k.store.read number f size
          let count := (result.toOption.getD []).length
          some (({ k with store := store }.withLast
            { e with process := next result }).afterMoving count)

def writeStream (k : Kernel) (e : Entry) (stream : Nat) (data : Bytes)
    (next : Except IoError Unit → Process) : Option Kernel :=
  match (e.self.opened? stream).bind fun n => (k.store.openFile? n).map (n, ·) with
  | none => some (k.withLast { e with process := next (.error .badDescriptor) })
  | some (number, f) =>
      match f.channel with
      | .pipe pipe =>
          if f.writes then k.writePipe e pipe stream data next
          else some (k.withLast { e with process := next (.error .badDescriptor) })
      | _ =>
          let (result, store) := k.store.write number f data
          some (({ k with store := store }.withLast
            { e with process := next result }).afterMoving data.length)

def waitChild (k : Kernel) (e : Entry) (child : Option Nat) (how : Waiting)
    (next : Option (Nat × Ending) → Process) : Option Kernel :=
  match k.endedChild? e.self.number child with
  | some (number, ending) =>
      let others := k.entries.filter fun other => other.self.number ≠ number
      some ({ k with entries := others }.withLast
        { e with process := next (some (number, ending)) })
  | none =>
      let goesOn := match how with
        | .toTheEnd => true
        | .toSignal => e.self.pending.isEmpty
        | .notAtAll => false
      if k.hasChild e.self.number child && goesOn then none
      else some (k.withLast { e with process := next none })

-- What a program finds of its own when it begins.
def freshened (me : Self) : Self :=
  { me with
    streams := me.streams.filter fun entry => entry.1 < firstHidden
    caught := [], pending := [] }

-- One turn of an entry, the others being in the kernel, unless it must wait.
def turn (programs : Programs) (k : Kernel) (e : Entry) : Option Kernel :=
  match e.process with
  | .done _ => none
  | .act f =>
      let (process, store, self) := f k.store e.self
      some ({ k with store := store }.withLast { e with process := process, self := self })
  | .rest none _ => none
  | .rest (some 0) next => some (k.withLast { e with process := next () })
  | .rest (some micros) next =>
      some (k.withLast { e with
        process := .rest (some 0) next, wakes := k.store.clock + micros })
  | .read stream size next => k.readStream e stream size next
  | .write stream data next => k.writeStream e stream data next
  | .fork child next =>
      let number := k.nextNumber
      let me := { e.self with number := number, parent := e.self.number, pending := [] }
      some (({ k with nextNumber := number + 1 }.withLast
        { e with process := next number }).withLast
        { self := me, process := child, wakes := k.store.clock + startMicros })
  | .wait child how next => k.waitChild e child how next
  | .signal target signal next =>
      let all := e :: k.entries
      let found := all.any fun other => other.self.number = target && other.ending?.isNone
      let strike (other : Entry) : Entry :=
        if other.self.number = target then struck signal other else other
      if signal = 0 || !found then some (k.withLast (e.goingOn (next found)))
      else some ({ k with entries := k.entries.map strike }.withLast
        ((strike e).goingOn (next found)))
  | .become path args environment next =>
      let failed (error : IoError) : Option Kernel :=
        some (k.withLast { e with process := next error })
      match resolve k.store.settled.files e.self.cwd maxInterpreters path args with
      | .error error => failed error
      | .ok (name, args) =>
          match programs name with
          | none => failed .notExecutableFormat
          | some program =>
              some (k.withLast { e with
                process := program args environment, self := freshened e.self })

-- The first entry that can take its turn takes it.
def step (programs : Programs) (k : Kernel) : List Entry → List Entry → Option Kernel
  | _, [] => none
  | passed, e :: rest =>
      let others := passed.reverse ++ rest
      if e.stopped || k.store.clock < e.wakes then step programs k (e :: passed) rest
      else match turn programs { k with entries := others } e with
        | some k => some k
        | none => step programs k (e :: passed) rest

-- The next time at which a resting entry wakes.
def nextWake? (k : Kernel) : Option Nat :=
  (k.entries.filterMap fun e =>
    if k.store.clock < e.wakes && !e.stopped then some e.wakes else none).min?

def atTime (k : Kernel) (clock : Nat) : Kernel :=
  { k with store := { k.store with clock := clock } }

-- The ending of a process that has ended.
def ending? (k : Kernel) (number : Nat) : Option Ending :=
  (k.entries.find? fun e => e.self.number = number).bind Entry.ending?

-- The kernel at the time at which one process ends, or at a limit, or when
-- nothing can happen any more.
def run (programs : Programs) (number : Nat) (limit : Option Nat) : Nat → Kernel → Kernel
  | 0, k => k
  | fuel + 1, k =>
      if (k.ending? number).isSome || limit.any (· ≤ k.store.clock) then k
      else match step programs k [] k.entries with
        | some k => run programs number limit fuel
            ((tidy k).atTime (k.store.clock + turnMicros))
        | none =>
            match k.nextWake?, limit with
            | some time, some limit =>
                run programs number (some limit) fuel (k.atTime (min time limit))
            | some time, none => run programs number none fuel (k.atTime time)
            | none, some limit => k.atTime limit
            | none, none => k

end Kernel

end Conformance.Machine
