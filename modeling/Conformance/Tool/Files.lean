import Conformance.Tool.Streams

-- Programs that make, copy and remove files.
namespace Conformance.Tool

open Machine (Act Access Self Store)
open Text (Bytes)

-- The path of something inside a directory under its own name.
def inside (source dir : Path) : Path :=
  Path.join dir (Naming.lastPart source)

-- What is done with several sources and one target, or a target directory.
def transfer (given : Given) (act : Path → Path → Task Bool) : Task Nat := do
  let intoDirectory (sources : List Path) (dir : Path) : Task Nat :=
    Task.statusOf <$> Task.all sources fun source => act source (inside source dir)
  match given.value? 't' with
  | some dir =>
      if given.operands.isEmpty then Task.misuse "missing file operand" 1
      else if ← isDirectory dir then intoDirectory given.operands dir
      else Task.fail ("target directory " ++ quoted dir ++ ": " ++
        (match ← look true dir with
        | .ok _ => IoError.notADirectory
        | .error e => e).reason) 1
  | none =>
      match given.operands.reverse with
      | [] => Task.misuse "missing file operand" 1
      | [only] => Task.misuse ("missing destination file operand after " ++ quoted only) 1
      | target :: sources => do
          let isDir ← isDirectory target
          match sources with
          | [source] =>
              if isDir && !given.has 'T' then
                Task.statusOf <$> act source (inside source target)
              else Task.statusOf <$> act source target
          | sources =>
              if given.has 'T' then
                Task.misuse ("extra operand " ++ quoted (given.operands.getD 2 "")) 1
              else if isDir then intoDirectory sources.reverse target
              else Task.fail ("target " ++ quoted target ++ ": " ++
                (match ← look true target with
                | .ok _ => IoError.notADirectory
                | .error e => e).reason) 1

namespace Copy

-- All that a copy of a node and what is below it brings. What is at the
-- target is not copied.
def copied (t : Tree) (source target : Place) : Tree :=
  let copies (entry : Place × Node) : Bool :=
    source.isPrefixOf entry.1 && !target.isPrefixOf entry.1
  (t.nodes.filter copies).foldl (fun t entry =>
    t.set (target ++ entry.1.drop source.length) entry.2) t

def put (t : Tree) (cwd : Place) (target : Path) (data : Bytes) (executable : Bool) :
    Except IoError Tree := do
  let place ← t.locate cwd target
  if Path.endsWithSlash target && (t.node? place).isNone then .error .notADirectory
  else match t.node? place with
    | some (.file _ _) => t.write cwd target data
    | some _ => t.write cwd target data
    | none => do
        let t ← t.write cwd target data
        .ok (t.set place (.file data executable))

def one (given : Given) (source target : Path) : Task Bool := do
  let deep := given.has 'r' || given.has 'R' || given.has 'a'
  let refused (text : String) : Task Bool := do
    Task.warn text
    pure false
  match ← look (!(deep || given.has 'P' || given.has 'd')) source with
  | .error e => refused ("cannot stat " ++ quoted source ++ ": " ++ e.reason)
  | .ok (place, node) => do
      let target' ← look true target
      let told (t : Path) : Task Unit := do
        if given.has 'v' then Task.say (quoted source ++ " -> " ++ quoted t ++ "\n")
      match node, target' with
      | .directory, target' =>
          if !deep then refused ("-r not specified; omitting directory " ++ quoted source)
          else match target' with
            | .ok (_, .file _ _) =>
                refused ("cannot overwrite non-directory " ++ quoted target ++
                  " with directory " ++ quoted source)
            | _ => do
                let cwd ← Task.act Act.cwd
                let t ← Task.act Act.files
                match t.locate cwd target with
                | .error e =>
                    refused ("cannot create directory " ++ quoted target ++ ": " ++ e.reason)
                | .ok here =>
                    told target
                    changeStore fun st => { st with files := copied st.files place here }
                    if place.isPrefixOf here then
                      refused ("cannot copy a directory, " ++ quoted source ++
                        ", into itself, " ++ quoted target)
                    else pure true
      | node, .ok (there, other) =>
          if there = place then
            refused (quoted source ++ " and " ++ quoted target ++ " are the same file")
          else if other = .directory then
            refused ("cannot overwrite directory " ++ quoted target ++ " with non-directory")
          else if given.has 'n' then pure true
          else do
            if ← Task.agrees (given.has 'i') ("overwrite " ++ quoted target) then
              finish refused told node
            else pure false
      | node, .error _ => finish refused told node
where
  finish (refused : String → Task Bool) (told : Path → Task Unit) (node : Node) :
      Task Bool := do
    let data : Bytes × Bool := match node with
      | .file data executable => (data, executable)
      | _ => ([], true)
    let result ← match node with
      | .link path => changeFiles fun t cwd => do
          let place ← t.entry cwd target
          .ok (t.set place (.link path))
      | .tool name => changeFiles fun t cwd => do
          let place ← t.locate cwd target
          t.checkDirectory place.dropLast
          .ok (t.set place (.tool name))
      | _ => changeFiles fun t cwd => put t cwd target data.1 data.2
    match result with
    | .ok _ => do
        told target
        pure true
    | .error e => refused ("cannot create regular file " ++ quoted target ++ ": " ++ e.reason)

end Copy

def copyGrammar : Grammar := {
  flags := ['r', 'R', 'a', 'f', 'p', 'v', 'n', 'i', 'P', 'L', 'd', 'T', 'u', 'x', 'l', 's']
  valued := ['t']
  long := [("recursive", 'r'), ("archive", 'a'), ("force", 'f'), ("preserve", 'p'),
    ("verbose", 'v'), ("no-clobber", 'n'), ("interactive", 'i'), ("no-target-directory", 'T'),
    ("target-directory", 't'), ("no-dereference", 'P'), ("dereference", 'L'), ("link", 'l'),
    ("symbolic-link", 's'), ("update", 'u'), ("one-file-system", 'x')] }

def cp : Task Nat := do
  let given ← Task.arguments copyGrammar
  transfer given (Copy.one given)

namespace Move

def one (given : Given) (source target : Path) : Task Bool := do
  let refused (text : String) : Task Bool := do
    Task.warn text
    pure false
  match ← look false source with
  | .error e => refused ("cannot stat " ++ quoted source ++ ": " ++ e.reason)
  | .ok (place, node) => do
      let t ← Task.act Act.files
      let cwd ← Task.act Act.cwd
      let cannot (e : IoError) : Task Bool :=
        refused ("cannot move " ++ quoted source ++ " to " ++ quoted target ++ ": " ++ e.reason)
      let go (here : Place) : Task Bool := do
        changeStore fun st => st.move place here
        if given.has 'v' then
          Task.say ("renamed " ++ quoted source ++ " -> " ++ quoted target ++ "\n")
        pure true
      match t.entry cwd target with
      | .error e => cannot e
      | .ok here =>
          match t.checkDirectory here.dropLast with
          | .error e => cannot e
          | .ok _ =>
              if here = place then
                refused (quoted source ++ " and " ++ quoted target ++ " are the same file")
              else if node = .directory && place.isPrefixOf here then
                refused ("cannot move " ++ quoted source ++ " to a subdirectory of itself, " ++
                  quoted target)
              else match node, t.node? here with
                | .directory, none => go here
                | .directory, some .directory =>
                    if (t.children here).isEmpty then go here
                    else cannot .notEmpty
                | .directory, some _ =>
                    refused ("cannot overwrite non-directory " ++ quoted target ++
                      " with directory " ++ quoted source)
                | _, some .directory =>
                    refused ("cannot overwrite directory " ++ quoted target ++
                      " with non-directory")
                | _, some _ =>
                    if given.last? ['i', 'n', 'f'] = some 'n' then pure true
                    else do
                      let asks := given.last? ['i', 'n', 'f'] = some 'i'
                      if ← Task.agrees asks ("overwrite " ++ quoted target) then go here
                      else pure false
                | _, none => if Path.endsWithSlash target then cannot .notADirectory else go here

end Move

def mv : Task Nat := do
  let given ← Task.arguments {
    flags := ['f', 'i', 'n', 'v', 'T', 'u'], valued := ['t']
    long := [("force", 'f'), ("no-clobber", 'n'), ("interactive", 'i'), ("verbose", 'v'),
      ("no-target-directory", 'T'), ("target-directory", 't'), ("update", 'u')] }
  transfer given (Move.one given)

namespace Remove

def isDots (p : Path) : Bool :=
  let name := Naming.lastPart p
  name = "." || name = ".."

def kindOf : Node → String
  | .directory => "directory"
  | .link _ => "symbolic link"
  | .device _ => "character special file"
  | .file [] _ => "regular empty file"
  | _ => "regular file"

-- One thing that is there, behind the question whether it should go.
def gone (given : Given) (asks : Bool) (place : Place) (p : Path) (node : Node) : Task Bool := do
  if ← Task.agrees asks ("remove " ++ kindOf node ++ " " ++ quoted p) then
    changeStore fun st => st.remove place
    if given.has 'v' then
      Task.say ("removed " ++ (if node = .directory then "directory " else "") ++ quoted p ++ "\n")
    pure true
  else pure false

-- A thing with all that is below it. A directory stays where something in it
-- does.
def whole (given : Given) (asks : Bool) : Nat → Place → Path → Task Bool
  | 0, _, _ => pure true
  | fuel + 1, place, p => do
      let t ← Task.act Act.files
      match t.node? place with
      | none => pure true
      | some .directory => do
          let names := t.children place
          let goesOn ← Task.agrees (asks && !names.isEmpty)
            ("descend into directory " ++ quoted p)
          if !goesOn then pure false
          else do
            let below (done : Bool) (name : String) : Task Bool := do
              let now ← whole given asks fuel (place ++ [name]) (Path.join p name)
              pure (done && now)
            if ← names.foldlM below true then gone given asks place p .directory
            else pure false
      | some node => gone given asks place p node

def one (given : Given) (p : Path) : Task Bool := do
  let deep := given.has 'r' || given.has 'R'
  let asks := given.last? ['i', 'f', 'I'] = some 'i'
  let refused (text : String) : Task Bool := do
    Task.warn text
    pure false
  let cannot (e : IoError) : Task Bool :=
    refused ("cannot remove " ++ quoted p ++ ": " ++ e.reason)
  if deep && isDots p then
    refused ("refusing to remove '.' or '..' directory: skipping " ++ quoted p)
  else match ← look false p with
    | .error e =>
        if given.has 'f' && (e = .notFound || e = .notADirectory) then pure true else cannot e
    | .ok (place, node) => do
        let t ← Task.act Act.files
        let isDir := node = .directory
        if isDir && deep && place = [] then do
          Task.warn ("it is dangerous to operate recursively on " ++ quoted p ++
            (if p = "/" then "" else " (same as '/')"))
          refused "use --no-preserve-root to override this failsafe"
        else if isDir && !deep && !given.has 'd' then cannot .isADirectory
        else if isDir && !deep && !(t.children place).isEmpty then cannot .notEmpty
        else do
          -- what was asked about and kept is no failure
          discard (whole given asks (t.nodes.length + 1) place p)
          pure true

end Remove

def rm : Task Nat := do
  let given ← Task.arguments {
    flags := ['f', 'r', 'R', 'd', 'v', 'i', 'I']
    long := [("force", 'f'), ("recursive", 'r'), ("dir", 'd'), ("verbose", 'v'),
      ("preserve-root", 'P'), ("one-file-system", 'P'), ("interactive", 'i')] }
  if given.operands.isEmpty && !given.has 'f' then Task.misuse "missing operand" 1
  else Task.statusOf <$> Task.all given.operands (Remove.one given)

-- A directory that is empty is removed, and those above it when asked.
def removeEmpty (given : Given) : Nat → Path → Task Bool
  | 0, _ => pure true
  | fuel + 1, p => do
      let cannot (e : IoError) : Task Bool := do
        Task.warn ("failed to remove " ++ quoted p ++ ": " ++ e.reason)
        pure false
      if given.has 'v' then Task.say ("rmdir: removing directory, " ++ quoted p ++ "\n")
      match ← look false p with
      | .error e => cannot e
      | .ok (place, node) => do
          let t ← Task.act Act.files
          if node ≠ .directory then cannot .notADirectory
          else if Naming.lastPart p = "." then cannot .invalidArgument
          else if !(t.children place).isEmpty then
            if given.has 'I' then pure true else cannot .notEmpty
          else do
            changeStore fun st => st.remove place
            if given.has 'p' then
              match Path.parent? p with
              | none => pure true
              | some "" => pure true
              | some "/" => pure true
              | some above => removeEmpty given fuel above
            else pure true

def rmdir : Task Nat := do
  let given ← Task.arguments {
    flags := ['p', 'v', 'I']
    long := [("parents", 'p'), ("verbose", 'v'), ("ignore-fail-on-non-empty", 'I')] }
  if given.operands.isEmpty then Task.misuse "missing operand" 1
  else Task.statusOf <$> Task.all given.operands fun p =>
    removeEmpty given (p.length + 1) p

namespace Mode

-- Whether a file can be run, once a change of its mode is made.
def applied (mode : String) (executable : Bool) : Option Bool :=
  let cs := mode.toList
  if !cs.isEmpty && cs.all fun c => '0' ≤ c && c ≤ '7' then
    some (cs.reverse.take 3 |>.any fun c => (c.toNat - 48) % 2 = 1)
  else (mode.splitOn ",").foldlM (fun now clause =>
    let rest := clause.toList.dropWhile fun c => ['u', 'g', 'o', 'a'].contains c
    match rest with
    | sign :: letters =>
        let known := letters.all fun c => ['r', 'w', 'x', 'X', 's', 't', 'u', 'g', 'o'].contains c
        let runs := letters.contains 'x'
        if !known then none
        else if sign = '+' then some (now || runs)
        else if sign = '-' then some (now && !runs)
        else if sign = '=' then some runs
        else none
    | [] => none) executable

end Mode

-- The paths of a chain that are not there yet, the outermost first.
def missingOf (t : Tree) (cwd : Place) (p : Path) : List Path :=
  ((Path.ancestors p).filter fun q => q ≠ "" && !t.leadsToDirectory cwd q).reverse

def mkdir : Task Nat := do
  let given ← Task.arguments {
    flags := ['p', 'v'], valued := ['m'],
    long := [("parents", 'p'), ("verbose", 'v'), ("mode", 'm')] }
  if given.operands.isEmpty then Task.misuse "missing operand" 1
  if let some mode := given.value? 'm' then
    if (Mode.applied mode false).isNone then Task.fail ("invalid mode " ++ quoted mode) 1
  Task.statusOf <$> Task.all given.operands fun p => do
    let missing := missingOf (← Task.act Act.files) (← Task.act Act.cwd) p
    let made ← Task.act (Act.change fun st me =>
      let (made, files) := if given.has 'p' && p ≠ "" then st.files.makeDirectories me.cwd p
        else match st.files.makeDirectory me.cwd p with
          | .ok files => (.ok (), files)
          | .error e => (.error e, st.files)
      (made, { st with files := files }, me))
    match made with
    | .ok _ => do
        if given.has 'v' then
          missing.forM fun q => Task.say ("mkdir: created directory " ++ quoted q ++ "\n")
        pure true
    | .error e => do
        Task.warn ("cannot create directory " ++ quoted p ++ ": " ++ e.reason)
        pure false

namespace Stamp

-- Whether a text has the digits of a month, a day and a time, maybe with a
-- year in front of them and seconds behind a point.
def isDigits (text : String) : Bool :=
  let front := text.toList.takeWhile (· ≠ '.')
  let behind := text.toList.drop front.length
  front.all Char.isDigit && [8, 10, 12].contains front.length &&
    (behind = [] || behind.length = 3 && (behind.drop 1).all Char.isDigit)

-- Whether a text may be a date: numbers with signs between them, or a word for
-- a time.
def isDate (text : String) : Bool :=
  let words := ["now", "today", "yesterday", "tomorrow", "ago", "day", "days", "week", "weeks",
    "month", "months", "year", "years", "hour", "hours", "minute", "minutes", "second", "seconds",
    "next", "last", "utc", "z", "t", "noon", "midnight", "jan", "feb", "mar", "apr", "may", "jun",
    "jul", "aug", "sep", "oct", "nov", "dec"]
  let pieces := (text.toList.map fun c => if c.isAlpha then c.toLower else ' ')
  let named := ((String.ofList pieces).splitOn " ").filter (· ≠ "")
  named.all words.contains

end Stamp

def touch : Task Nat := do
  let given ← Task.arguments {
    flags := ['a', 'c', 'm', 'f', 'h'], valued := ['d', 'r', 't']
    long := [("no-create", 'c'), ("date", 'd'), ("reference", 'r'), ("time", 't')] }
  if let some date := given.value? 't' then
    if !Stamp.isDigits date then Task.fail ("invalid date format " ++ quoted date) 1
  if let some date := given.value? 'd' then
    if !Stamp.isDate date then Task.fail ("invalid date format " ++ quoted date) 1
  if let some other := given.value? 'r' then
    if let .error e := ← look true other then
      Task.fail ("failed to get attributes of " ++ quoted other ++ ": " ++ e.reason) 1
  if given.operands.isEmpty then Task.misuse "missing file operand" 1
  else Task.statusOf <$> Task.all given.operands fun p => do
    let cannot (text : String) (e : IoError) : Task Bool := do
      Task.warn (text ++ " " ++ quoted p ++ ": " ++ e.reason)
      pure false
    match ← look true p with
    | .ok _ => pure true
    | .error .notFound =>
        if given.has 'c' then pure true
        else match ← changeFiles fun t cwd => t.write cwd p [] with
          | .ok _ => pure true
          | .error .isADirectory => cannot "setting times of" .notFound
          | .error e => cannot "cannot touch" e
    | .error e => cannot (if Path.endsWithSlash p then "setting times of" else "cannot touch") e

end Conformance.Tool
