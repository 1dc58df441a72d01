import Conformance.Shell.Letters
import Conformance.Shell.Lookup

namespace Conformance.Shell

open Machine (Act)

-- The path that a step from a path leads to when links do not count. Two
-- slashes in front, and no more, are kept.
def logical (here target : String) : String :=
  let base := if Path.isAbsolute target then target else here
  let isDouble := base.startsWith "//" && !base.startsWith "///"
  let start := if Path.isAbsolute target then [] else Tree.names here
  let steps := (Tree.names target).foldl (fun steps name =>
    if name = "." then steps else if name = ".." then steps.dropLast else steps ++ [name]) start
  (if isDouble then "//" else "/") ++ String.intercalate "/" steps

-- Whether two paths lead to one directory.
def sameDirectory (t : Tree) (cwd : Place) (p q : Path) : Bool :=
  match t.locate cwd p, t.locate cwd q with
  | .ok a, .ok b => a = b && t.isDirectory a
  | _, _ => false

namespace Session

-- The session in another directory, with the names that tell where it is and
-- was.
def goneTo (s : Session) (here : String) : Session :=
  let passed (s : Session) (name value : String) : Session :=
    let s := s.assign name value
    match s.binding? name with
    | some b => s.setBinding { b with exported := true }
    | none => s
  { passed (passed s "OLDPWD" s.here) "PWD" here with here := here }

end Session

namespace Builtin

-- Whether the options ask for paths without links.
def isPhysical (letters : List Letter) : Bool :=
  letters.foldl (fun _ l => l.char = 'P') false

def pwd (args : List String) : Step Unit := do
  let (letters, _) ← Letter.ofArgs "LP" args
  let cwd ← Step.act Act.cwd
  let s ← get
  Step.setStatus 0
  Step.say ((if isPhysical letters then Tree.render cwd else s.here) ++ "\n")

-- Whether the search for a directory passes by a path that begins so.
def isAnchored (target : String) : Bool :=
  Path.isAbsolute target || (Tree.names target).head?.any fun name => name = "." || name = ".."

-- Goes to another directory, and tells which one when it was not named.
def cd (args : List String) : Step Unit := do
  let (letters, args) ← Letter.ofArgs "LP" args
  let s ← get
  let (target, tells) := match args with
    | [] => ((s.value? "HOME").getD "", false)
    | "-" :: _ => ((s.value? "OLDPWD").getD "", true)
    | target :: _ => (target, false)
  let wanted := target
  let target := if target = "" then "." else target
  let t ← Step.act Act.files
  let cwd ← Step.act Act.cwd
  let bases := if isAnchored target && wanted ≠ "" then []
    else ((s.value? "CDPATH").map fun path => path.splitOn ":").getD []
  let found := bases.findSome? fun base =>
    let p := if base = "" then target else base ++ "/" ++ target
    if sameDirectory t cwd p p then some (p, decide (base ≠ "")) else none
  let (target, tells) := match found with
    | some (p, isElsewhere) => (p, tells || isElsewhere)
    | none => (target, tells)
  let target := if isPhysical letters then target else logical s.here target
  match t.locate cwd target with
  | .ok place =>
      if t.isDirectory place then
        Step.act (Act.own fun me => ((), { me with cwd := place }))
        let here := if isPhysical letters then Tree.render place else target
        modify fun (s : Session) => s.goneTo here
        Step.setStatus 0
        if tells then Step.say (here ++ "\n")
      else Step.fault ("can't cd to " ++ wanted)
  | .error _ => Step.fault ("can't cd to " ++ wanted)

end Builtin

end Conformance.Shell
