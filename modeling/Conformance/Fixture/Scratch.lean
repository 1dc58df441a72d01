import Conformance.Config.Basic
import Conformance.Fixture
import Conformance.Process.Invoker

namespace Conformance

-- The directory in which one fixture runs.
inductive Scratch where
  -- removed behind the run
  | temporary (dir : Path)
  -- left to be looked into
  | kept (dir : Path)
deriving DecidableEq, Repr

-- Why there is no directory to run in.
structure ScratchError where
  cause : IoError
  -- told for a temporary directory only
  path : Option Path := none
deriving DecidableEq, Repr

def ScratchError.message (e : ScratchError) : String :=
  match e.path with
  | some path => e.cause.message ++ " at path " ++ Text.quoted path
  | none => e.cause.message

namespace Fixture

def isPlain (c : Char) : Bool :=
  c.isAlphanum || c = '-' || c = '.'

-- The name of a fixture as one part of a path.
def slug (f : Fixture) : String :=
  f.name.map fun c => if isPlain c then c else '_'

-- The parts of a name that a kept directory follows.
def keptParts (f : Fixture) : List Path.Component :=
  (Path.components f.name).filter fun part => match part with
    | .normal _ => true
    | _ => false

-- Kept directories are laid out as the suite is.
def keptDirectory (f : Fixture) : Path :=
  if f.keptParts = [] then f.slug else Path.ofComponents f.keptParts

end Fixture

namespace Scratch

def path : Scratch → Path
  | temporary dir => dir
  | kept dir => dir

def keptPath? : Scratch → Option Path
  | temporary _ => none
  | kept dir => some dir

def parent (host : Host) (config : Config) : Path :=
  config.workDir.getD host.temporary

def keptPath (host : Host) (config : Config) (f : Fixture) : Path :=
  Path.join (Path.join (parent host config) f.category.name) f.keptDirectory

def temporaryPath (host : Host) (config : Config) (f : Fixture) : Path :=
  Path.join (Path.join host.cwdPath (parent host config))
    ("wacc-" ++ f.slug ++ "-" ++ host.freshEnd)

-- What an earlier run left in a kept directory is removed first.
def openKept (host : Host) (dir : Path) (t : Tree) : Except ScratchError Scratch × Tree :=
  match t.removeDirectory host.cwd dir with
  | (.error e, t) => if e = .notFound then made t else (.error ⟨e, none⟩, t)
  | (.ok _, t) => made t
where
  made (t : Tree) : Except ScratchError Scratch × Tree :=
    match t.makeDirectories host.cwd dir with
    | (.error e, t) => (.error ⟨e, none⟩, t)
    | (.ok _, t) => (.ok (kept dir), t)

def openTemporary (host : Host) (dir : Path) (t : Tree) : Except ScratchError Scratch × Tree :=
  match t.makeDirectory host.cwd dir with
  | .error e => (.error ⟨e, some dir⟩, t)
  | .ok t => (.ok (temporary dir), t)

-- The directory of a fixture, empty, or what prevents it.
def create (host : Host) (config : Config) (f : Fixture) (t : Tree) :
    Except ScratchError Scratch × Tree :=
  match t.makeDirectories host.cwd (parent host config) with
  | (.error e, t) => (.error ⟨e, none⟩, t)
  | (.ok _, t) =>
      if config.keepArtifacts then openKept host (keptPath host config f) t
      else openTemporary host (temporaryPath host config f) t

-- A temporary directory goes with all in it, as far as that can be done.
def close (host : Host) (t : Tree) : Scratch → Tree
  | temporary dir => (t.removeDirectory host.cwd dir).2
  | kept _ => t

end Scratch

end Conformance
