import Conformance.Tool.Files

-- Programs that link, mark and list files.
namespace Conformance.Tool

open Machine (Act Access Self Store)
open Text (Bytes)

namespace Link

def one (given : Given) (source target : Path) : Task Bool := do
  let symbolic := given.has 's'
  let refused (text : String) : Task Bool := do
    Task.warn text
    pure false
  let t ← Task.act Act.files
  let cwd ← Task.act Act.cwd
  let cannot (e : IoError) : Task Bool :=
    refused ("failed to create " ++ (if symbolic then "symbolic" else "hard") ++ " link " ++
      quoted target ++ (if symbolic then "" else " => " ++ quoted source) ++ ": " ++ e.reason)
  let node? : Except IoError Node ← if symbolic then pure (.ok (.link source))
    else match ← look false source with
      | .error e => pure (.error e)
      | .ok (_, node) => pure (.ok node)
  match node? with
  | .error e => refused ("failed to access " ++ quoted source ++ ": " ++ e.reason)
  | .ok .directory => refused (source ++ ": hard link not allowed for directory")
  | .ok node =>
      match t.entry cwd target with
      | .error e => cannot e
      | .ok place =>
          match t.checkDirectory place.dropLast with
          | .error e => cannot e
          | .ok _ =>
              if symbolic && source = "" then cannot .notFound
              else if (t.node? place).isSome && !given.has 'f' then
                refused ("failed to create " ++ (if symbolic then "symbolic" else "hard") ++
                  " link " ++ quoted target ++ ": " ++ IoError.alreadyExists.reason)
              else do
                changeStore fun st =>
                  let st := st.remove place
                  { st with files := st.files.set place node }
                if given.has 'v' then
                  Task.say (quoted target ++ (if symbolic then " -> " else " => ") ++
                    quoted source ++ "\n")
                pure true

end Link

def ln : Task Nat := do
  let given ← Task.arguments {
    flags := ['s', 'f', 'n', 'T', 'v', 'r'], valued := ['t']
    long := [("symbolic", 's'), ("force", 'f'), ("no-dereference", 'n'),
      ("no-target-directory", 'T'), ("verbose", 'v'), ("target-directory", 't')] }
  match given.operands with
  | [source] => Task.statusOf <$> Link.one given source (Naming.lastPart source)
  | _ => transfer given (Link.one given)

def chmod : Task Nat := do
  let call ← read
  -- a mode may look like an option
  let isOption (a : String) : Bool := ["-R", "-v", "-f", "-c", "--recursive"].contains a
  let args := call.args.filter fun a => !isOption a
  match if args.head? = some "--" then args.drop 1 else args with
  | [] => Task.misuse "missing operand" 1
  | [mode] => Task.misuse ("missing operand after " ++ quoted mode) 1
  | mode :: paths =>
      if (Mode.applied mode false).isNone then
        Task.misuse ("invalid mode: " ++ quoted mode) 1
      else Task.statusOf <$> Task.all paths fun p => do
        match ← look true p with
        | .error e => do
            Task.warn ("cannot access " ++ quoted p ++ ": " ++ e.reason)
            pure false
        | .ok (place, _) => do
            let deep := call.args.contains "-R" || call.args.contains "--recursive"
            let change (entry : Place × Node) : Place × Node := match entry.2 with
              | .file data executable =>
                  if entry.1 = place || deep && place.isPrefixOf entry.1 then
                    (entry.1, .file data ((Mode.applied mode executable).getD executable))
                  else entry
              | _ => entry
            changeStore fun st => { st with files := ⟨st.files.nodes.map change⟩ }
            pure true

namespace Canonical

-- The place of a path in which names may be missing.
def missing (t : Tree) (cwd : Place) (p : Path) : Place :=
  (Tree.names p).foldl (fun here name =>
    if name = "." then here
    else if name = ".." then here.dropLast
    else match t.locate here name with
      | .ok place => place
      | .error _ => here ++ [name]) (Tree.origin cwd p)

-- The place of a path in which links are names like others.
def unfollowed (cwd : Place) (p : Path) : Place :=
  (Tree.names p).foldl (fun here name =>
    if name = "." then here else if name = ".." then here.dropLast else here ++ [name])
    (Tree.origin cwd p)

-- The place of a path of which all, all but the last name, or nothing must be
-- there.
def of (given : Given) (t : Tree) (cwd : Place) (p : Path) : Except IoError Place :=
  match given.last? ['e', 'f', 'm'] with
  | some 'm' => if p = "" then .error .notFound
      else .ok (if given.has 's' then unfollowed cwd p else missing t cwd p)
  | kind => do
      let place ← t.locate cwd p
      if kind = some 'e' && (t.node? place).isNone then .error .notFound
      t.checkDirectory place.dropLast
      .ok (if given.has 's' then unfollowed cwd p else place)

-- A place as a path from another one.
def fromPlace (base place : Place) : Path :=
  let common := ((base.zip place).takeWhile fun pair => pair.1 = pair.2).length
  let steps := List.replicate (base.length - common) ".." ++ place.drop common
  if steps.isEmpty then "." else String.intercalate "/" steps

end Canonical

def readlink : Task Nat := do
  let given ← Task.arguments {
    flags := ['f', 'e', 'm', 'n', 'q', 'S', 'v', 'z']
    long := [("canonicalize", 'f'), ("canonicalize-existing", 'e'), ("canonicalize-missing", 'm'),
      ("no-newline", 'n'), ("quiet", 'q'), ("silent", 'q'), ("verbose", 'v'), ("zero", 'z')] }
  let mark := if given.has 'z' then "\x00" else "\n"
  let ending := if given.has 'n' && given.operands.length = 1 then "" else mark
  match given.operands with
  | [] => Task.misuse "missing operand" 1
  | paths => Task.statusOf <$> Task.all paths fun p => do
      let t ← Task.act Act.files
      let cwd ← Task.act Act.cwd
      let told (e : IoError) : Task Bool := do
        if given.has 'v' then Task.warn (p ++ ": " ++ e.reason)
        pure false
      if (given.last? ['e', 'f', 'm']).isSome then
        match Canonical.of given t cwd p with
        | .ok place => do
            Task.say (Tree.render place ++ ending)
            pure true
        | .error e => told e
      else match ← look false p with
        | .ok (_, .link target) => do
            Task.say (target ++ ending)
            pure true
        | .ok _ => told .invalidArgument
        | .error e => told e

def realpath : Task Nat := do
  let given ← Task.arguments {
    flags := ['e', 'm', 's', 'q', 'z', 'L', 'P'], valued := ['R', 'B']
    long := [("canonicalize-existing", 'e'), ("canonicalize-missing", 'm'), ("strip", 's'),
      ("no-symlinks", 's'), ("quiet", 'q'), ("zero", 'z'), ("logical", 'L'), ("physical", 'P'),
      ("relative-to", 'R'), ("relative-base", 'B')] }
  let t ← Task.act Act.files
  let cwd ← Task.act Act.cwd
  let refused (p : Path) (e : IoError) : Task Bool := do
    if !given.has 'q' then Task.warn (p ++ ": " ++ e.reason)
    pure false
  let base ← match given.value? 'R' with
    | none => pure none
    | some dir =>
        match Canonical.of given t cwd dir with
        | .ok place => pure (some place)
        | .error e => Task.fail (dir ++ ": " ++ e.reason) 1
  match given.operands with
  | [] => Task.misuse "missing operand" 1
  | paths => Task.statusOf <$> Task.all paths fun p => do
      match Canonical.of given t cwd p with
      | .error e => refused p e
      | .ok place => do
          let shown := match base with
            | some base => Canonical.fromPlace base place
            | none => Tree.render place
          Task.say (shown ++ if given.has 'z' then "\x00" else "\n")
          pure true

namespace Listing

-- A name with a mark for what it is, when asked.
def marked (given : Given) (name : String) (node? : Option Node) : String :=
  name ++ match node? with
    | some .directory => if given.has 'p' || given.has 'F' then "/" else ""
    | some (.file _ true) => if given.has 'F' then "*" else ""
    | some (.tool _) => if given.has 'F' then "*" else ""
    | some (.link _) => if given.has 'F' then "@" else ""
    | _ => ""

def inDirectory (given : Given) (t : Tree) (place : Place) : List String :=
  let names := (t.children place).filter fun name =>
    given.has 'a' || given.has 'A' || !name.startsWith "."
  let shown := names.map fun name => marked given name (t.node? (place ++ [name]))
  let dots := if given.has 'a' then
      [".", ".."].map fun name => marked given name (some .directory)
    else []
  let all := dots ++ shown
  if given.has 'r' then all.reverse else all

end Listing

def ls : Task Nat := do
  let given ← Task.arguments {
    flags := ['1', 'a', 'A', 'd', 'p', 'F', 'r', 'U', 'C', 'x', 'q', 'N'], refusal := 2
    long := [("all", 'a'), ("almost-all", 'A'), ("directory", 'd'), ("classify", 'F'),
      ("reverse", 'r')] }
  let paths := if given.operands.isEmpty then ["."] else
    given.operands.mergeSort fun a b => a ≤ b
  let paths := if given.has 'r' then paths.reverse else paths
  let found ← paths.mapM fun p => do
    match ← look true p with
    | .ok found => pure (p, some found)
    | .error e => do
        match ← look false p with
        | .ok found => pure (p, some found)
        | .error _ => do
            Task.warn ("cannot access " ++ quoted p ++ ": " ++ e.reason)
            pure (p, none)
  let isDir (entry : Path × Option (Place × Node)) : Bool :=
    !given.has 'd' && entry.2.any fun found => found.2 = .directory
  let t ← Task.act Act.files
  let files := found.filter fun entry => entry.2.isSome && !isDir entry
  let dirs := found.filter isDir
  let lines (names : List String) : String := String.join (names.map (· ++ "\n"))
  let blocks := (if files.isEmpty then [] else
      [lines (files.map fun entry => Listing.marked given entry.1 (entry.2.map Prod.snd))]) ++
    dirs.map fun entry =>
      (if paths.length > 1 then entry.1 ++ ":\n" else "") ++
        lines (Listing.inDirectory given t ((entry.2.map Prod.fst).getD []))
  Task.putOr 2 (Text.bytesOf (String.intercalate "\n" blocks))
  pure (if found.any fun entry => entry.2.isNone then 2 else 0)

end Conformance.Tool
