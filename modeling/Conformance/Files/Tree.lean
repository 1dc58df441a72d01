import Conformance.Files.Error
import Conformance.Path
import Conformance.Text.Utf8

namespace Conformance

open Text (Bytes)

-- What has a name among the files and keeps nothing.
inductive Device where
  -- empty, and takes all
  | null
  -- zeros without end
  | zeros
  -- zeros without end, and takes nothing
  | full
deriving DecidableEq, Repr

-- What stands at a place in a tree of files. A link stands for another path,
-- and a tool is a program that comes with the system.
inductive Node where
  | directory
  | file (data : Bytes) (executable : Bool)
  | link (target : Path)
  | device (kind : Device)
  | tool (name : String)
deriving DecidableEq, Repr

-- The names from the root down to a place.
abbrev Place := List String

-- All places but the root, which is always there, each at most once.
structure Tree where
  nodes : List (Place × Node)
deriving DecidableEq, Repr

namespace Tree

def empty : Tree := ⟨[]⟩

def node? (t : Tree) (place : Place) : Option Node :=
  if place = [] then some .directory
  else (t.nodes.find? fun entry => entry.1 = place).map Prod.snd

def isDirectory (t : Tree) (place : Place) : Bool :=
  t.node? place = some .directory

-- The tree with one place set.
def set (t : Tree) (place : Place) (node : Node) : Tree :=
  if (t.node? place).isSome then
    ⟨t.nodes.map fun entry => if entry.1 = place then (place, node) else entry⟩
  else ⟨t.nodes ++ [(place, node)]⟩

-- The tree without a place and all below it.
def without (t : Tree) (place : Place) : Tree :=
  ⟨t.nodes.filter fun entry => !place.isPrefixOf entry.1⟩

-- The tree without all that is below a place.
def emptied (t : Tree) (place : Place) : Tree :=
  ⟨t.nodes.filter fun entry => entry.1 = place || !place.isPrefixOf entry.1⟩

-- A place must be a directory before a name in it is looked up.
def checkDirectory (t : Tree) (place : Place) : Except IoError Unit :=
  match t.node? place with
  | some .directory => .ok ()
  | some _ => .error .notADirectory
  | none => .error .notFound

def maxNameBytes : Nat := 255

def maxPathBytes : Nat := 4095

-- One step of a walk, from a directory.
def step (here : Place) (name : String) : Except IoError Place :=
  if name = "." then .ok here
  else if name = ".." then .ok here.dropLast
  else if maxNameBytes < name.utf8ByteSize then .error .nameTooLong
  else .ok (here ++ [name])

def names (p : Path) : List String :=
  ((Path.splitSlashes p.toList).filter fun piece => piece ≠ []).map String.ofList

def origin (cwd : Place) (p : Path) : Place :=
  if Path.isAbsolute p then [] else cwd

-- A walk up to its end or to a link on the way. The last step follows a link
-- only when it is asked to.
def stride (t : Tree) (follow : Bool) :
    Place → List String → Except IoError (Place × Option (Path × List String))
  | here, [] => .ok (here, none)
  | here, name :: rest => do
      t.checkDirectory here
      let next ← step here name
      match t.node? next with
      | some (.link target) =>
          if rest = [] && !follow then .ok (next, none) else .ok (here, some (target, rest))
      | _ => t.stride follow next rest

-- A walk that goes on where each link leads, through so many links at most.
def walk (t : Tree) (follow : Bool) : Nat → Place → List String → Except IoError Place
  | links, here, steps => do
      match ← t.stride follow here steps with
      | (place, none) => .ok place
      | (here, some (target, rest)) =>
          match links with
          | 0 => .error .tooManyLinks
          | links + 1 => t.walk follow links (origin here target) (names target ++ rest)

def maxLinks : Nat := 40

def checkText (p : Path) : Except IoError Unit :=
  if p.toList.contains '\x00' then .error .nulInName
  else if maxPathBytes < p.utf8ByteSize then .error .nameTooLong
  else if p = "" then .error .notFound
  else .ok ()

-- The place a path leads to. All but the last step must stay in directories;
-- nothing need be at the place itself.
def locate (t : Tree) (cwd : Place) (p : Path) : Except IoError Place := do
  checkText p
  t.walk true maxLinks (origin cwd p) (names p)

-- The place that a path names: a link itself, not what it leads to.
def entry (t : Tree) (cwd : Place) (p : Path) : Except IoError Place := do
  checkText p
  t.walk (Path.endsWithSlash p) maxLinks (origin cwd p) (names p)

def readBytes (t : Tree) (cwd : Place) (p : Path) : Except IoError Bytes := do
  let place ← t.locate cwd p
  match t.node? place with
  | none => .error .notFound
  | some .directory => .error .isADirectory
  | some (.file data _) => if Path.endsWithSlash p then .error .notADirectory else .ok data
  | some _ => if Path.endsWithSlash p then .error .notADirectory else .ok []

def readText (t : Tree) (cwd : Place) (p : Path) : Except IoError String := do
  let data ← t.readBytes cwd p
  match Text.ofBytes? data with
  | some s => .ok s
  | none => .error .notText

-- The place of a file opened for writing, made empty or new.
def openForWriting (t : Tree) (cwd : Place) (p : Path) : Except IoError (Place × Tree) := do
  let place ← t.locate cwd p
  match t.node? place with
  | some .directory => .error .isADirectory
  | some (.file _ executable) =>
      if Path.endsWithSlash p then .error .isADirectory
      else .ok (place, t.set place (.file [] executable))
  | some (.device _) => .ok (place, t)
  | some _ => .error .permissionDenied
  | none =>
      if Path.endsWithSlash p then .error .isADirectory
      else .ok (place, t.set place (.file [] false))

-- The names of what stands in a directory, sorted.
def children (t : Tree) (place : Place) : List String :=
  (t.nodes.filterMap fun entry =>
    if place.isPrefixOf entry.1 && entry.1.length = place.length + 1 then entry.1.getLast?
    else none).mergeSort fun a b => a ≤ b

-- The tree with a place and all below it at another place.
def moved (t : Tree) (source target : Place) : Tree :=
  ⟨(t.without target).nodes.map fun entry =>
    if source.isPrefixOf entry.1 then (target ++ entry.1.drop source.length, entry.2) else entry⟩

-- Data written over other data from some offset on. What lies between is zero.
def overwritten (old : Bytes) (offset : Nat) (data : Bytes) : Bytes :=
  old.take offset ++ List.replicate (offset - old.length) 0 ++ data ++
    old.drop (offset + data.length)

-- The tree with data written into an open file, while that file is there.
def writeAt (t : Tree) (place : Place) (offset : Nat) (data : Bytes) : Tree :=
  match t.node? place with
  | some (.file old executable) => t.set place (.file (overwritten old offset data) executable)
  | _ => t

-- The tree with data added to an open file, while that file is there.
def append (t : Tree) (place : Place) (data : Bytes) : Tree :=
  match t.node? place with
  | some (.file old executable) => t.set place (.file (old ++ data) executable)
  | _ => t

def write (t : Tree) (cwd : Place) (p : Path) (data : Bytes) : Except IoError Tree := do
  let (place, t) ← t.openForWriting cwd p
  .ok (t.append place data)

-- A link that is there already is not followed.
def makeDirectory (t : Tree) (cwd : Place) (p : Path) : Except IoError Tree := do
  let place ← t.entry cwd p
  match t.node? place with
  | none => .ok (t.set place .directory)
  | some _ => .error .alreadyExists

def leadsToDirectory (t : Tree) (cwd : Place) (p : Path) : Bool :=
  match t.locate cwd p with
  | .ok place => t.isDirectory place
  | .error _ => false

-- What is there already as a directory need not be made.
def ensureDirectory (t : Tree) (cwd : Place) (p : Path) : Except IoError Tree :=
  match t.makeDirectory cwd p with
  | .ok t => .ok t
  | .error e => if t.leadsToDirectory cwd p then .ok t else .error e

-- The first path of a list, each path being in the next one. The directories
-- made before a failure stay.
def makeChain (t : Tree) (cwd : Place) : List Path → Except IoError Unit × Tree
  | [] => (.error (.other "failed to create whole tree"), t)
  | p :: above =>
      if p = "" then (.ok (), t)
      else match t.ensureDirectory cwd p with
        | .ok t => (.ok (), t)
        | .error .notFound =>
            match t.makeChain cwd above with
            | (.error e, t) => (.error e, t)
            | (.ok _, t) =>
                match t.ensureDirectory cwd p with
                | .ok t => (.ok (), t)
                | .error e => (.error e, t)
        | .error e => (.error e, t)

-- A directory, and all above it that are missing.
def makeDirectories (t : Tree) (cwd : Place) (p : Path) : Except IoError Unit × Tree :=
  t.makeChain cwd (Path.ancestors p)

-- The directory a file is to stand in.
def makeParent (t : Tree) (cwd : Place) (p : Path) : Except IoError Unit × Tree :=
  t.makeDirectories cwd ((Path.parent? p).getD "")

-- A directory and all in it are removed; of a link, only the link. A directory
-- that is named by a step upward is only emptied, and one that is named by a
-- dot cannot be removed.
def removeDirectory (t : Tree) (cwd : Place) (p : Path) : Except IoError Unit × Tree :=
  match t.entry cwd p with
  | .error e => (.error e, t)
  | .ok place =>
      match t.node? place with
      | none => (.error .notFound, t)
      | some .directory =>
          match (names p).getLast? with
          | some "." => (.error .invalidArgument, t.emptied place)
          | some ".." => (.ok (), t.emptied place)
          | _ => (.ok (), t.without place)
      | some (.link _) => (.ok (), t.without place)
      | some _ => (.error .notADirectory, t)

def render (place : Place) : Path :=
  "/" ++ String.intercalate "/" place

def listed (under : Place) (entry : Place × Node) : Option String :=
  if under.isPrefixOf entry.1 && entry.1.length > under.length then
    let path := String.intercalate "/" (entry.1.drop under.length)
    some (match entry.2 with
      | .directory => path ++ "/"
      | _ => path)
  else none

-- All that is in a directory, as sorted relative paths; directories end with a
-- slash.
def listing (t : Tree) (under : Place) : List String :=
  (t.nodes.filterMap (listed under)).mergeSort fun a b => a ≤ b

end Tree

end Conformance
