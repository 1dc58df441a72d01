import Conformance.Files.Tree
import Conformance.Machine.Signal

namespace Conformance.Machine

open Text (Bytes)

-- Where an open file leads.
inductive Channel where
  | file (place : Place)
  -- a file that has lost its name
  | nameless (data : Bytes)
  | directory
  | device (kind : Device)
  | pipe (number : Nat)
deriving DecidableEq, Repr

-- A file as it was opened. All processes that share it share its offset.
structure OpenFile where
  channel : Channel
  offset : Nat := 0
  reads : Bool := false
  writes : Bool := false
  -- writes go to the end, wherever the offset is
  appends : Bool := false
deriving DecidableEq, Repr

-- A long file that grows: its size among the files, and what came since. Of
-- that some number of bytes is kept, the latest first.
structure Growth where
  place : Place
  base : Nat
  added : Nat
  held : Nat
  chunks : List Bytes

-- What all processes share. Time counts in microseconds.
structure Store where
  files : Tree
  opened : List (Nat × OpenFile) := []
  pipes : List (Nat × Bytes) := []
  growths : List Growth := []
  fresh : Nat := 0
  clock : Nat := 0

-- What a process has of its own.
structure Self where
  number : Nat
  parent : Nat
  -- the number of the process that its group goes back to
  group : Nat := 0
  cwd : Place
  -- the open files behind the numbers of its streams
  streams : List (Nat × Nat) := []
  ignored : List Nat := []
  caught : List Nat := []
  -- caught signals that came, in order
  pending : List Nat := []
  -- permissions that new files lack
  mask : Nat := 18
  -- by letter, the present limits and those that they may be raised to
  limits : List (Char × Option Nat × Option Nat) := []

abbrev Environment := List (String × String)

-- How long a process waits for a child: until it ends, or until a signal comes
-- that the process catches, or not at all.
inductive Waiting where
  | toTheEnd
  | toSignal
  | notAtAll
deriving DecidableEq, Repr

-- A process as what it does next, and what it becomes by the answer.
inductive Process where
  | done (ending : Ending)
  | act (f : Store → Self → Process × Store × Self)
  -- without a length, for ever
  | rest (micros : Option Nat) (next : Unit → Process)
  | read (stream size : Nat) (next : Except IoError Bytes → Process)
  | write (stream : Nat) (data : Bytes) (next : Except IoError Unit → Process)
  | fork (child : Process) (next : Nat → Process)
  -- one child or any
  | wait (child : Option Nat) (how : Waiting) (next : Option (Nat × Ending) → Process)
  | signal (target signal : Nat) (next : Bool → Process)
  -- another program takes the place of this one, or cannot
  | become (path : Path) (args : List String) (environment : Environment)
      (next : IoError → Process)

namespace Store

-- A file that is longer than this keeps what is added to it apart.
def longFile : Nat := 4096

-- How much of a growth is kept at least.
def keptGrowth : Nat := 4194304

-- The latest chunks up to some number of bytes.
def latest : Nat → List Bytes → List Bytes
  | _, [] => []
  | room, chunk :: rest =>
      if room = 0 then [] else chunk :: latest (room - chunk.length) rest

def Growth.settle (files : Tree) (g : Growth) : Tree :=
  files.append g.place g.chunks.reverse.flatten

-- The store with all growth among the files.
def settled (st : Store) : Store :=
  if st.growths.isEmpty then st
  else { st with files := st.growths.foldl Growth.settle st.files, growths := [] }

def openFile? (st : Store) (number : Nat) : Option OpenFile :=
  (st.opened.find? fun entry => entry.1 = number).map Prod.snd

def setOpened (st : Store) (number : Nat) (f : OpenFile) : Store :=
  { st with opened := st.opened.map fun entry => if entry.1 = number then (number, f) else entry }

def addOpened (st : Store) (f : OpenFile) : Nat × Store :=
  (st.fresh, { st with opened := (st.fresh, f) :: st.opened, fresh := st.fresh + 1 })

def pipeData (st : Store) (pipe : Nat) : Bytes :=
  ((st.pipes.find? fun entry => entry.1 = pipe).map Prod.snd).getD []

def setPipe (st : Store) (pipe : Nat) (data : Bytes) : Store :=
  { st with pipes := st.pipes.map fun entry => if entry.1 = pipe then (pipe, data) else entry }

def growth? (st : Store) (place : Place) : Option Growth :=
  st.growths.find? fun g => g.place = place

-- The size of the file at a place.
def sizeAt? (st : Store) (place : Place) : Option Nat :=
  match st.growth? place, st.files.node? place with
  | some g, _ => some (g.base + g.added)
  | none, some (.file data _) => some data.length
  | none, _ => none

def grow (data : Bytes) (place : Place) (g : Growth) : Growth :=
  if g.place ≠ place then g
  else
    let size := data.length
    let chunks := data :: g.chunks
    if g.held + size < 2 * keptGrowth then
      { g with added := g.added + size, held := g.held + size, chunks := chunks }
    else { g with added := g.added + size, held := keptGrowth, chunks := latest keptGrowth chunks }

-- The store with data at the end of a file.
def append (st : Store) (place : Place) (size : Nat) (data : Bytes) : Store :=
  if (st.growth? place).isSome then
    { st with growths := st.growths.map (grow data place) }
  else if size < longFile then { st with files := st.files.append place data }
  else { st with growths := ⟨place, size, data.length, data.length, [data]⟩ :: st.growths }

-- The store after some data was written, or why it was not. Pipes are not
-- among the files.
def write (st : Store) (number : Nat) (f : OpenFile) (data : Bytes) :
    Except IoError Unit × Store :=
  if !f.writes then (.error .badDescriptor, st)
  else match f.channel with
  | .device .full => (.error .noSpace, st)
  | .device _ => (.ok (), st)
  | .directory => (.error .badDescriptor, st)
  | .pipe _ => (.error .badDescriptor, st)
  | .nameless old =>
      let offset := if f.appends then old.length else f.offset
      (.ok (), st.setOpened number { f with
        channel := .nameless (Tree.overwritten old offset data), offset := offset + data.length })
  | .file place =>
      let size := (st.sizeAt? place).getD 0
      let offset := if f.appends then size else f.offset
      let st := st.setOpened number { f with offset := offset + data.length }
      if offset = size then (.ok (), st.append place size data)
      else
        let st := st.settled
        (.ok (), { st with files := st.files.writeAt place offset data })

-- What is read of an open file other than a pipe.
def read (st : Store) (number : Nat) (f : OpenFile) (size : Nat) :
    Except IoError Bytes × Store :=
  let slice (data : Bytes) : Except IoError Bytes × Store :=
    let taken := (data.drop f.offset).take size
    (.ok taken, st.setOpened number { f with offset := f.offset + taken.length })
  if !f.reads then (.error .badDescriptor, st)
  else match f.channel with
  | .device .null => (.ok [], st)
  | .device _ => (.ok (List.replicate size 0), st)
  | .directory => (.error .isADirectory, st)
  | .pipe _ => (.error .badDescriptor, st)
  | .nameless data => slice data
  | .file place =>
      match st.settled.files.node? place with
      | some (.file data _) => slice data
      | _ => (.ok [], st)

-- What becomes of an open file when the names below a place are taken away.
def unname (files : Tree) (place : Place) (f : OpenFile) : OpenFile :=
  match f.channel with
  | .file here =>
      if place.isPrefixOf here then
        match files.node? here with
        | some (.file data _) => { f with channel := .nameless data }
        | _ => { f with channel := .nameless [] }
      else f
  | _ => f

-- The store without what stands at a place. Open files stay open.
def remove (st : Store) (place : Place) : Store :=
  { st with
    files := st.files.without place
    opened := st.opened.map fun entry => (entry.1, unname st.files place entry.2) }

def rename (source target : Place) (f : OpenFile) : OpenFile :=
  match f.channel with
  | .file here =>
      if source.isPrefixOf here then
        { f with channel := .file (target ++ here.drop source.length) }
      else f
  | _ => f

-- The store with a place and all below it under another name.
def move (st : Store) (source target : Place) : Store :=
  let st := st.remove target
  { st with
    files := st.files.moved source target
    opened := st.opened.map fun entry => (entry.1, rename source target entry.2) }

end Store

-- How a file is opened.
inductive Access where
  | reading
  -- made empty or new
  | writing
  | appending
  -- not made empty
  | both
deriving DecidableEq, Repr

-- The stream that a path stands for.
def standingStream? (p : Path) : Option Nat :=
  if p = "/dev/stdin" then some 0
  else if p = "/dev/stdout" then some 1
  else if p = "/dev/stderr" then some 2
  else ["/dev/fd/", "/proc/self/fd/"].findSome? fun dir =>
    if p.startsWith dir then (String.ofList (p.toList.drop dir.length)).toNat? else none

def Self.opened? (me : Self) (stream : Nat) : Option Nat :=
  (me.streams.find? fun entry => entry.1 = stream).map Prod.snd

def Self.setStream (me : Self) (stream : Nat) (target : Option Nat) : Self :=
  let others := me.streams.filter fun entry => entry.1 ≠ stream
  { me with streams := match target with
      | some number => (stream, number) :: others
      | none => others }

-- The first number from a given one on that is no stream yet.
def Self.freeStream (me : Self) (lowest : Nat) : Nat :=
  go me.streams.length lowest
where
  go : Nat → Nat → Nat
    | 0, stream => stream
    | fuel + 1, stream => if (me.opened? stream).isSome then go fuel (stream + 1) else stream

-- Streams from this number on are not handed on to a program.
def firstHidden : Nat := 10

namespace Store

def accessed (channel : Channel) : Access → OpenFile
  | .reading => { channel := channel, reads := true }
  | .writing => { channel := channel, writes := true }
  | .appending => { channel := channel, writes := true, appends := true }
  | .both => { channel := channel, reads := true, writes := true }

-- A file opened for reading.
def openForReading (st : Store) (cwd : Place) (p : Path) : Except IoError OpenFile := do
  let place ← st.files.locate cwd p
  let channel ← match st.files.node? place with
    | none => .error .notFound
    | some .directory => .ok .directory
    | some (.device kind) => .ok (.device kind)
    | some (.file _ _) => .ok (.file place)
    | some _ => .ok (.nameless [])
  if Path.endsWithSlash p && channel ≠ .directory then .error .notADirectory
  else .ok (accessed channel .reading)

-- A file opened for writing, made if it is not there.
def openForWriting (st : Store) (cwd : Place) (p : Path) (how : Access) :
    Except IoError (OpenFile × Store) := do
  let place ← st.files.locate cwd p
  match st.files.node? place with
  | some (.device kind) => .ok (accessed (.device kind) how, st)
  | some (.file _ _) =>
      if how = .writing then
        let (place, files) ← st.files.openForWriting cwd p
        .ok (accessed (.file place) how, { st with files := files })
      else if Path.endsWithSlash p then .error .isADirectory
      else .ok (accessed (.file place) how, st)
  | _ =>
      let (place, files) ← st.files.openForWriting cwd p
      .ok (accessed (.file place) how, { st with files := files })

-- An open file opened once more, from its beginning.
def reopened (st : Store) (f : OpenFile) (how : Access) : OpenFile × Store :=
  match f.channel, how with
  | .file place, .writing =>
      let st := match st.files.node? place with
        | some (.file _ executable) =>
            { st with files := st.files.set place (.file [] executable) }
        | _ => st
      (accessed (.file place) how, st)
  | .nameless _, .writing => (accessed (.nameless []) how, st)
  | channel, how => (accessed channel how, st)

-- The number of a file that a process opens.
def openAt (st : Store) (me : Self) (p : Path) (how : Access) : Except IoError Nat × Store :=
  match standingStream? p with
  | some stream =>
      match (me.opened? stream).bind st.openFile? with
      | some f =>
          let (f, st) := st.reopened f how
          let (number, st) := st.addOpened f
          (.ok number, st)
      | none => (.error .notFound, st)
  | none =>
      match how with
      | .reading =>
          match st.openForReading me.cwd p with
          | .error e => (.error e, st)
          | .ok f =>
              let (number, st) := st.addOpened f
              (.ok number, st)
      | how =>
          match st.openForWriting me.cwd p how with
          | .error e => (.error e, st)
          | .ok (f, st) =>
              let (number, st) := st.addOpened f
              (.ok number, st)

end Store

-- A part of a process that gives an answer to what comes behind it.
def Act (α : Type) : Type := (α → Process) → Process

instance : Monad Act where
  pure a := fun next => next a
  bind m f := fun next => m fun a => f a next

namespace Act

-- A change that needs nothing from inside the files.
def outline (f : Store → Self → α × Store × Self) : Act α := fun next =>
  .act fun st me =>
    let (a, st, me) := f st me
    (next a, st, me)

def change (f : Store → Self → α × Store × Self) : Act α :=
  outline fun st me => f st.settled me

-- A change of what the process has of its own.
def own (f : Self → α × Self) : Act α :=
  outline fun st me =>
    let (a, me) := f me
    (a, st, me)

-- The process and what it starts from now on are a group of their own.
def leadGroup : Act Unit :=
  own fun me => ((), { me with group := me.number })

def look (f : Store → Self → α) : Act α :=
  change fun st me => (f st me, st, me)

def read (stream size : Nat) : Act (Except IoError Bytes) := fun next =>
  .read stream size next

def write (stream : Nat) (data : Bytes) : Act (Except IoError Unit) := fun next =>
  if data.isEmpty then next (.ok ()) else .write stream data next

def rest (micros : Option Nat) : Act Unit := fun next =>
  .rest micros next

-- A turn in which nothing is done.
def turn : Act Unit :=
  rest (some 0)

def fork (child : Process) : Act Nat := fun next =>
  .fork child next

def wait (child : Option Nat) (how : Waiting) : Act (Option (Nat × Ending)) := fun next =>
  .wait child how next

def signal (target number : Nat) : Act Bool := fun next =>
  .signal target number next

def become (path : Path) (args : List String) (environment : Environment) : Act IoError :=
  fun next => .become path args environment next

def finish (ending : Ending) : Act α := fun _ =>
  .done ending

def self : Act Self := own fun me => (me, me)

def clock : Act Nat := outline fun st me => (st.clock, st, me)

def files : Act Tree := look fun st _ => st.files

def cwd : Act Place := own fun me => (me.cwd, me)

-- The change of the files that a process makes, or why it cannot.
def changeFiles (f : Tree → Place → Except IoError Tree) : Act (Except IoError Unit) :=
  change fun st me =>
    match f st.files me.cwd with
    | .ok files => (.ok (), { st with files := files }, me)
    | .error e => (.error e, st, me)

-- A file opened as the first free stream from some number on.
def openFile (lowest : Nat) (p : Path) (how : Access) : Act (Except IoError Nat) :=
  (if how = .writing then change else outline) fun st me =>
    let stream := me.freeStream lowest
    match st.openAt me p how with
    | (.ok number, st) => (.ok stream, st, me.setStream stream (some number))
    | (.error e, st) => (.error e, st, me)

def closeStream (stream : Nat) : Act Unit :=
  own fun me => ((), me.setStream stream none)

-- A stream as another name for an open one.
def copyStream (source target : Nat) : Act (Except IoError Unit) :=
  own fun me =>
    match me.opened? source with
    | some number => (.ok (), me.setStream target (some number))
    | none => (.error .badDescriptor, me)

-- The streams of a new pipe, to read from it and to write into it.
def makePipe : Act (Nat × Nat) :=
  outline fun st me =>
    let pipe := st.fresh
    let st := { st with fresh := pipe + 1, pipes := (pipe, []) :: st.pipes }
    let (source, st) := st.addOpened (Store.accessed (.pipe pipe) .reading)
    let (target, st) := st.addOpened (Store.accessed (.pipe pipe) .writing)
    let first := me.freeStream firstHidden
    let me := me.setStream first (some source)
    let second := me.freeStream firstHidden
    ((first, second), st, me.setStream second (some target))

-- How many bytes a process reads at once.
def blockSize : Nat := 65536

-- Far more turns than any process takes.
def patience : Nat := 1000000000000

-- All that a stream still brings.
def readAll (stream : Nat) : Act (Except IoError Bytes) :=
  go patience []
where
  go : Nat → List Bytes → Act (Except IoError Bytes)
    | 0, done => pure (.ok done.reverse.flatten)
    | fuel + 1, done => do
        match ← read stream blockSize with
        | .error e => pure (.error e)
        | .ok [] => pure (.ok done.reverse.flatten)
        | .ok data => go fuel (data :: done)

end Act

end Conformance.Machine
