import Conformance.Tool.Lines

-- Programs that take parts of lines or put lines side by side.
namespace Conformance.Tool

open Text (Bytes)

-- Ranges of numbers that count from one. A range without an end goes on.
abbrev Ranges := List (Nat × Option Nat)

namespace Ranges

inductive Fault where
  | fromZero
  | twoDashes
  | noEndpoint
  | decreasing
  | tooLarge (digits : String)
  | notNumber (rest : String)

def Fault.message (ofFields : Bool) : Fault → String
  | fromZero =>
      (if ofFields then "fields" else "byte/character positions") ++ " are numbered from 1"
  | twoDashes => "invalid " ++ (if ofFields then "field" else "byte or character") ++ " range"
  | noEndpoint => "invalid range with no endpoint: -"
  | decreasing => "invalid decreasing range"
  | tooLarge digits => (if ofFields then "field number " else "byte/character offset ") ++
      quoted digits ++ " is too large"
  | notNumber rest => "invalid " ++ (if ofFields then "field value " else
      "byte/character position ") ++ quoted rest

-- What no number of a range may reach.
def limit : Nat := 18446744073709551615

-- A range from what stands before its dash, if it has one, and from its last
-- number.
def close : Option (Option Nat) → Option Nat → Except Fault (Nat × Option Nat)
  | none, last =>
      match last.getD 0 with
      | 0 => .error .fromZero
      | n => .ok (n, some n)
  | some none, none => .error .noEndpoint
  | some first, none => .ok (first.getD 1, none)
  | some first, some last =>
      if last < first.getD 1 then .error .decreasing else .ok (first.getD 1, some last)

-- The ranges of a text, behind those that were read, latest first.
def read : Nat → List Char → Option (Option Nat) → Option Nat → Ranges → Except Fault Ranges
  | 0, _, _, _, done => .ok done.reverse
  | _, [], first, last, done => do
      let range ← close first last
      .ok (range :: done).reverse
  | fuel + 1, c :: rest, first, last, done =>
      if c = '-' then
        if first.isSome then .error .twoDashes
        else if last = some 0 then .error .fromZero
        else read fuel rest (some last) none done
      else if c = ',' ∨ c = ' ' ∨ c = '\t' then do
        let range ← close first last
        read fuel rest none none (range :: done)
      else if c.isDigit then
        let digits := (c :: rest).takeWhile Char.isDigit
        let n := (String.ofList digits).toNat?.getD 0
        if n ≥ limit then .error (.tooLarge (String.ofList digits))
        else read fuel (rest.drop (digits.length - 1)) first (some n) done
      else .error (.notNumber (String.ofList (c :: rest)))

-- The ranges in order, where those with common numbers are one.
def merged (ranges : Ranges) : Ranges :=
  let inOrder := ranges.mergeSort fun a b => a.1 ≤ b.1
  (inOrder.foldl (fun (done : Ranges) r =>
    match done with
    | (a, some b) :: rest =>
        if r.1 ≤ b then (a, r.2.map fun d => max b d) :: rest else r :: done
    | (_, none) :: _ => done
    | [] => [r]) []).reverse

def ofText (text : String) : Except Fault Ranges :=
  (read (text.length + 1) text.toList none none []).map merged

-- The numbers that are in no range.
def complement (ranges : Ranges) : Ranges :=
  let (gaps, next) := ranges.foldl (fun (state : Ranges × Option Nat) r =>
    let gaps := match state.2 with
      | some n => if n < r.1 then (n, some (r.1 - 1)) :: state.1 else state.1
      | none => state.1
    (gaps, r.2.map (· + 1))) ([], some 1)
  ((next.map fun n => (n, none)).toList ++ gaps).reverse

-- The members of a list at the numbers of each range.
def pick (ranges : Ranges) (xs : List α) : List (List α) :=
  ranges.map fun r =>
    let behind := xs.drop (r.1 - 1)
    match r.2 with
    | some last => behind.take (last + 1 - r.1)
    | none => behind

end Ranges

namespace Cut

-- How lines are cut.
structure Plan where
  ranges : Ranges
  byFields : Bool
  separator : UInt8
  output : Option Bytes
  onlySeparated : Bool
  mark : UInt8

def fields (p : Plan) (line : Bytes) : Option Bytes :=
  if !line.contains p.separator then (if p.onlySeparated then none else some line)
  else
    let chosen := (Ranges.pick p.ranges (splitAt p.separator line)).flatten
    some (chosen.intersperse (p.output.getD [p.separator])).flatten

def bytes (p : Plan) (line : Bytes) : Bytes :=
  let chosen := (Ranges.pick p.ranges line).filter (!·.isEmpty)
  (chosen.intersperse (p.output.getD [])).flatten

def lines (p : Plan) (lines : List Bytes) : Bytes :=
  joinMarked p.mark (if p.byFields then lines.filterMap (fields p) else lines.map (bytes p))

-- What is left of a text whose lines are the fields.
def whole (p : Plan) (data : Bytes) : Bytes :=
  let (_, isOpen) := splitMarked p.mark data
  let line := if isOpen then data else data.dropLast
  if data.isEmpty then [] else ((fields p line).map (· ++ [p.mark])).getD []

-- What is wrong with the options, the first one that is not allowed.
def fault? (options : List (Char × String)) : Option String :=
  let faults := options.zipIdx.filterMap fun entry =>
    let ((letter, value), i) := entry
    if letter = 'd' && (Text.bytesOf value).length > 1 then
      some "the delimiter must be a single character"
    else if ['b', 'c', 'f'].contains letter &&
        (options.take i).any (fun o => ['b', 'c', 'f'].contains o.1) then
      some "only one list may be specified"
    else none
  faults.head?

end Cut

def cut : Task Nat := do
  let given ← Task.arguments {
    flags := ['s', 'n', 'C', 'z'], valued := ['b', 'c', 'f', 'd', 'O']
    long := [("bytes", 'b'), ("characters", 'c'), ("fields", 'f'), ("delimiter", 'd'),
      ("only-delimited", 's'), ("complement", 'C'), ("output-delimiter", 'O'),
      ("zero-terminated", 'z')] }
  if let some fault := Cut.fault? given.options then Task.misuse fault 1
  let some kind := given.last? ['b', 'c', 'f']
    | Task.misuse "you must specify a list of bytes, characters, or fields" 1
  let byFields := kind = 'f'
  if !byFields && given.has 'd' then
    Task.misuse "an input delimiter may be specified only when operating on fields" 1
  if !byFields && given.has 's' then
    Task.misuse
      "suppressing non-delimited lines makes sense\n\tonly when operating on fields" 1
  let ranges ← match Ranges.ofText ((given.value? kind).getD "") with
    | .ok ranges => pure (if given.has 'C' then ranges.complement else ranges)
    | .error fault => Task.misuse (fault.message byFields) 1
  let plan : Cut.Plan := {
    ranges := ranges, byFields := byFields
    separator := (Text.bytesOf ((given.value? 'd').getD "\t")).headD 0
    output := (given.value? 'O').map fun text => if text = "" then [0] else Text.bytesOf text
    onlySeparated := given.has 's', mark := if given.has 'z' then 0 else 10 }
  if byFields && plan.separator = plan.mark then do
    let (found, status) ← inputs given.operands plainly 1
    found.forM fun entry => Task.put (Cut.whole plan entry.2)
    pure status
  else
    Prod.snd <$> linesOf plan.mark given.operands
      (fun _ lines => Task.put (Cut.lines plan lines)) ()

namespace Paste

-- The separators of a list, in which a backslash stands before their names.
-- There are none where one ends the list.
def separators? : Bytes → Option (List Bytes)
  | [] => some []
  | 92 :: [] => none
  | 92 :: c :: rest =>
      let plain := ['a', 'e'].map fun c : Char => c.toNat.toUInt8
      let meant := if c = 48 then []
        else if plain.contains c then [c]
        else [(Shell.Escape.control? (Char.ofNat c.toNat)).getD c]
      (separators? rest).map (meant :: ·)
  | c :: rest => (separators? rest).map ([c] :: ·)

-- Lines side by side, with the separators in turn between them.
def joined (separators : List Bytes) (pieces : List Bytes) : Bytes :=
  match pieces with
  | [] => []
  | first :: rest => first ++ (rest.zipIdx.map fun entry =>
      (separators.getD (entry.2 % separators.length) []) ++ entry.1).flatten

-- Rows of one line from each column. Columns without lines of their own take
-- from the shared ones in turn.
def rows : Nat → List (Option (List Bytes)) → List Bytes → List (List Bytes)
  | 0, _, _ => []
  | fuel + 1, columns, shared =>
      let (row, columns, shared) := columns.foldl
        (fun (state : List (Option Bytes) × List (Option (List Bytes)) × List Bytes) column =>
          let (row, columns, shared) := state
          match column with
          | some lines => (lines.head? :: row, some (lines.drop 1) :: columns, shared)
          | none => (shared.head? :: row, none :: columns, shared.drop 1)) ([], [], shared)
      if row.all Option.isNone then []
      else (row.reverse.map (·.getD [])) :: rows fuel columns.reverse shared

-- Each file's lines in one line.
def inTurn (mark : UInt8) (separators : List Bytes) (paths : List Path) : Task Nat :=
  Task.statusOf <$> Task.all paths fun p => do
    match ← Task.input p with
    | .ok data => do
        Task.put (joined separators (splitMarked mark data).1 ++ [mark])
        pure true
    | .error e => do
        if e = .isADirectory then Task.put [mark]
        Task.warn (plainly p e)
        pure false

-- The files next to each other. One that cannot be opened is the end.
def abreast (mark : UInt8) (separators : List Bytes) (paths : List Path) : Task Nat := do
  let columns ← paths.mapM fun p => do
    if p = "-" then pure (none, true)
    else
      match ← Task.input p with
      | .ok data => pure (some (splitMarked mark data).1, true)
      | .error .isADirectory => do
          Task.warn (plainly p .isADirectory)
          pure (some [], false)
      | .error e => Task.fail (plainly p e) 1
  let shared ← if paths.contains "-" then
      match ← Task.input "-" with
      | .ok data => pure (splitMarked mark data).1
      | .error e => Task.fail (plainly "-" e) 1
    else pure []
  let size := (columns.map fun c => (c.1.getD []).length).foldl (· + ·) shared.length
  let lines := (rows (size + 1) (columns.map Prod.fst) shared).map (joined separators)
  Task.put (joinMarked mark lines)
  pure (Task.statusOf (columns.all Prod.snd))

end Paste

def paste : Task Nat := do
  let given ← Task.arguments {
    flags := ['s', 'z'], valued := ['d']
    long := [("serial", 's'), ("delimiters", 'd'), ("zero-terminated", 'z')] }
  let text := (given.value? 'd').getD "\t"
  let some separators := if text = "" then some [[]] else Paste.separators? (Text.bytesOf text)
    | Task.fail ("delimiter list ends with an unescaped backslash: " ++ text) 1
  let paths := if given.operands.isEmpty then ["-"] else given.operands
  let mark : UInt8 := if given.has 'z' then 0 else 10
  if given.has 's' then Paste.inTurn mark separators paths
  else Paste.abreast mark separators paths

end Conformance.Tool
