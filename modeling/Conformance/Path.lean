namespace Conformance

-- A path is a text whose parts are separated by slashes.
abbrev Path := String

namespace Path

inductive Component where
  | root
  | here
  | up
  | normal (name : String)
deriving DecidableEq, Repr

def isAbsolute (p : Path) : Bool :=
  p.toList.head? = some '/'

def isRelative (p : Path) : Bool :=
  !isAbsolute p

-- The pieces between slashes, empty ones included.
def splitSlashes : List Char → List (List Char)
  | [] => [[]]
  | c :: rest =>
      if c = '/' then [] :: splitSlashes rest
      else match splitSlashes rest with
        | [] => [[c]]
        | piece :: more => (c :: piece) :: more

def componentOf (piece : List Char) : Option Component :=
  if piece = [] ∨ piece = ['.'] then none
  else if piece = ['.', '.'] then some .up
  else some (.normal (String.ofList piece))

-- Repeated slashes count once, and a single dot counts only at the beginning
-- of a relative path.
def components (p : Path) : List Component :=
  let pieces := splitSlashes p.toList
  let tail := pieces.filterMap componentOf
  if isAbsolute p then .root :: tail
  else if pieces.head? = some ['.'] then .here :: tail
  else tail

def endsWithSlash (p : Path) : Bool :=
  p.toList.getLast? = some '/'

-- An absolute path stands for itself; a slash is put between the two only
-- where none is.
def join (base p : Path) : Path :=
  if isAbsolute p then p
  else if base = "" ∨ endsWithSlash base then base ++ p
  else base ++ "/" ++ p

-- A path read backwards, without slashes and single dots at its end.
def dropEndMarks : List Char → List Char
  | '/' :: rest => dropEndMarks rest
  | '.' :: '/' :: rest => dropEndMarks rest
  | cs => cs

-- The last part and all that stands before it, when that part is a name.
def splitLast (p : Path) : Option (List Char × List Char) :=
  let body := dropEndMarks p.toList.reverse
  let name := (body.takeWhile (· ≠ '/')).reverse
  let before := (body.dropWhile (· ≠ '/')).reverse
  if name = [] ∨ name = ['.'] ∨ name = ['.', '.'] then none else some (before, name)

def fileName? (p : Path) : Option String :=
  (splitLast p).map fun parts => String.ofList parts.2

-- A name without its last suffix, and the suffix. A dot at the beginning
-- starts no suffix.
def splitSuffix (name : List Char) : List Char × Option (List Char) :=
  let back := name.reverse
  let suffix := (back.takeWhile (· ≠ '.')).reverse
  match back.dropWhile (· ≠ '.') with
  | [] => (name, none)
  | _ :: stem => if stem = [] then (name, none) else (stem.reverse, some suffix)

def extension? (p : Path) : Option String := do
  let (_, name) ← splitLast p
  let suffix ← (splitSuffix name).2
  pure (String.ofList suffix)

-- The path with the last suffix of its name replaced.
def withExtension (p : Path) (extension : String) : Path :=
  match splitLast p with
  | none => p
  | some (before, name) => String.ofList (before ++ (splitSuffix name).1) ++ "." ++ extension

def Component.text : Component → String
  | .root => "/"
  | .here => "."
  | .up => ".."
  | .normal name => name

def ofComponents (parts : List Component) : Path :=
  parts.foldl (fun p part => join p part.text) ""

-- The directory a path is in, as far as its text tells.
def parent? (p : Path) : Option Path :=
  match (components p).reverse with
  | [] => none
  | .root :: _ => none
  | _ :: rest => some (ofComponents rest.reverse)

-- The paths that end at each of some parts, which are given backwards.
def outward : List Component → List Path
  | [] => [""]
  | [.root] => ["/"]
  | part :: rest => ofComponents (part :: rest).reverse :: outward rest

-- A path and the directories it is in, from the inner to the outer.
def ancestors (p : Path) : List Path :=
  p :: match (components p).reverse with
    | [] => []
    | [.root] => []
    | _ :: rest => outward rest

-- The path from the root. Two slashes at the beginning are kept as two, and
-- steps upward are not resolved. An empty path has no such form.
def absolute? (cwd p : Path) : Option Path :=
  if p = "" then none
  else
    let parts := components p
    let whole := match p.toList with
      | '/' :: '/' :: '/' :: _ => ofComponents parts
      | '/' :: '/' :: _ => (parts.drop 1).foldl (fun q part => join q part.text) "//"
      | '/' :: _ => ofComponents parts
      | _ =>
          let rest := match parts with
            | .here :: rest => rest
            | parts => parts
          rest.foldl (fun q part => join q part.text) cwd
    some (if endsWithSlash p then join whole "" else whole)

end Path

end Conformance
