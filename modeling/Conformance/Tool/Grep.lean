import Conformance.Regex.Parser
import Conformance.Tool.Lines

-- The search for lines that match a pattern.
namespace Conformance.Tool

open Machine (Act)
open Text (Bytes)

namespace Grep

-- What is searched for, and what is shown of it.
structure Search where
  pattern : Regex
  manner : Regex.Manner
  given : Given
  named : Bool
  -- lines around those that are found, if any are asked for
  before : Option Nat
  after : Option Nat
  most : Option Nat

def grammar : Grammar := {
  flags := ['c', 'v', 'i', 'y', 'n', 'l', 'L', 'q', 's', 'o', 'w', 'x', 'h', 'H', 'E', 'F', 'G',
    'P', 'r', 'R', 'a', 'z', 'b', 'U', 'I', 'T', 'Z', '-', 'u']
  valued := ['e', 'f', 'm', 'A', 'B', 'C', 'd', 'D', '<', '+', '>', '/', '|']
  -- the colour has no letter
  attached := ['@']
  refusal := 2
  form := "[OPTION]... PATTERNS [FILE]..."
  long := [("count", 'c'), ("invert-match", 'v'), ("ignore-case", 'i'), ("line-number", 'n'),
    ("files-with-matches", 'l'), ("files-without-match", 'L'), ("quiet", 'q'), ("silent", 'q'),
    ("no-messages", 's'), ("only-matching", 'o'), ("word-regexp", 'w'), ("line-regexp", 'x'),
    ("no-filename", 'h'), ("with-filename", 'H'), ("extended-regexp", 'E'),
    ("fixed-strings", 'F'), ("basic-regexp", 'G'), ("perl-regexp", 'P'), ("recursive", 'r'),
    ("dereference-recursive", 'R'), ("text", 'a'), ("null-data", 'z'), ("null", 'Z'),
    ("byte-offset", 'b'), ("initial-tab", 'T'), ("binary", 'U'), ("regexp", 'e'), ("file", 'f'),
    ("max-count", 'm'), ("after-context", 'A'), ("before-context", 'B'), ("context", 'C'),
    ("color", '@'), ("colour", '@'), ("label", '<'), ("include", '+'), ("exclude", '>'),
    ("exclude-dir", '/'), ("group-separator", '|'), ("no-group-separator", '-'),
    ("line-buffered", 'u'), ("directories", 'd'), ("devices", 'D')] }

def plainPattern (text : Bytes) : Regex :=
  text.foldr (fun b r => .both (.byte b) r) .empty

-- Any of some patterns.
def anyOf (rs : List Regex) : Regex :=
  match rs with
  | [] => .oneOf false []
  | r :: rest => rest.foldl .either r

-- The pattern within the bounds that options set for it.
def bounded (given : Given) (r : Regex) : Regex :=
  if given.has 'x' then .both .lineStart (.both r .lineEnd)
  else if given.has 'w' then .both (.clear true) (.both r (.clear false))
  else r

def selects (s : Search) (line : Bytes) : Bool :=
  (s.pattern.find? s.manner line 0).isSome != s.given.has 'v'

-- The parts of a line that match, one behind the other, with their places.
def parts (s : Search) (line : Bytes) : Nat → Nat → List (Nat × Bytes)
  | 0, _ => []
  | fuel + 1, place =>
      match s.pattern.find? s.manner line place with
      | none => []
      | some m =>
          if m.stop = m.start then
            if m.stop < line.length then parts s line fuel (m.stop + 1) else []
          else (m.start, m.text line 0) :: parts s line fuel m.stop

-- A line of a text.
structure Line where
  number : Nat
  offset : Nat
  text : Bytes
  found : Bool

def lineEnd (given : Given) : UInt8 :=
  if given.has 'z' then 0 else 10

-- What stands behind the name of a file.
def nameEnd (given : Given) (mark : String) : Bytes :=
  if given.has 'Z' then [0] else Text.bytesOf mark

-- What stands in front of a shown line.
def label (s : Search) (name : String) (number offset : Nat) (mark : String) : Bytes :=
  let g := s.given
  let wide (n : Nat) : String :=
    let digits := toString n
    if g.has 'T' && digits.length < 2 then " " ++ digits else digits
  let front := (if s.named then Text.bytesOf name ++ nameEnd g mark else []) ++
    Text.bytesOf ((if g.has 'n' then wide number ++ mark else "") ++
      (if g.has 'b' then wide offset ++ mark else ""))
  if g.has 'T' && !front.isEmpty then front ++ [9] else front

-- The lines that are shown, with those around them.
def shown (s : Search) (name : String) (lines : List Line) : List Bytes :=
  let put (mark : String) (l : Line) : Bytes :=
    label s name l.number l.offset mark ++ l.text ++ [lineEnd s.given]
  if s.given.has 'o' then
    if s.given.has 'v' then []
    else (lines.filter Line.found).flatMap fun l =>
      (parts s l.text (l.text.length + 2) 0).map fun part =>
        put ":" { l with offset := l.offset + part.1, text := part.2 }
  else if s.before.isNone && s.after.isNone then (lines.filter Line.found).map (put ":")
  else
    let before := s.before.getD 0
    let after := s.after.getD 0
    let hits := (lines.filter Line.found).map Line.number
    let isNear (n : Nat) : Bool := hits.any fun h => h ≤ n + before && n ≤ h + after
    let separator := if s.given.has '-' then []
      else Text.bytesOf ((s.given.value? '|').getD "--") ++ [10]
    ((lines.filter fun l => isNear l.number).foldl
      (fun (state : Option Nat × List Bytes) l =>
        let gap := match state.1 with
          | some last => if last + 1 < l.number then [separator] else []
          | none => []
        (some l.number, put (if l.found then ":" else "-") l :: (gap ++ state.2)))
      (none, [])).2.reverse

-- The lines of a text with their numbers and places.
def linesOf (s : Search) (data : Bytes) : List Line :=
  let lines := (splitMarked (lineEnd s.given) data).1
  (lines.foldl (fun (state : Nat × Nat × List Line) text =>
    let (number, offset, done) := state
    (number + 1, offset + text.length + 1, ⟨number, offset, text, selects s text⟩ :: done))
    (1, 0, [])).2.2.reverse

-- The search in one text; it tells whether it was what was looked for.
def inText (s : Search) (name : String) (data : Bytes) : Task Bool := do
  let g := s.given
  let isBinary := data.contains 0 && !g.has 'a' && !g.has 'z'
  let lines := if isBinary && g.has 'I' then [] else linesOf s data
  let hits := lines.filter Line.found
  let hits := match s.most with
    | some n => hits.take n
    | none => hits
  let last := (hits.getLast?.map Line.number).getD 0
  let found := !hits.isEmpty
  if g.has 'q' then pure found
  else if g.has 'l' || g.has 'L' then do
    let isListed := if g.last? ['l', 'L'] = some 'L' then !found else found
    if isListed then Task.putOr 2 (Text.bytesOf name ++ nameEnd g "\n")
    pure isListed
  else if g.has 'c' then do
    Task.putOr 2 ((if s.named then Text.bytesOf name ++ nameEnd g ":" else []) ++
      Text.bytesOf (toString hits.length ++ "\n"))
    pure found
  else do
    if isBinary then
      if found then Task.warn (name ++ ": binary file matches")
    else
      let seen := if s.most.isSome then lines.filter fun l =>
          l.number ≤ last + s.after.getD 0 && found
        else lines
      Task.putOr 2 (shown s name (seen.map fun l =>
        { l with found := l.found && l.number ≤ last })).flatten
    pure found

-- Whether a name fits one of the patterns that an option gives.
def fits (given : Given) (letter : Char) (name : String) : Bool :=
  (given.options.filter fun o => o.1 = letter).any fun o =>
    Shell.Glob.fits (Shell.Glob.parse (o.2.toList.map fun c => (c, false))) name.toList

-- Whether a file is searched by its name.
def isChosen (given : Given) (name : String) : Bool :=
  (!given.has '+' || fits given '+' name) && !fits given '>' name

-- The files below a directory.
def below (given : Given) (t : Tree) (place : Place) (path : Path) : List Path :=
  (t.listing place).filterMap fun name =>
    let steps := Tree.names name
    match t.node? (place ++ steps) with
    | some (.file _ _) =>
        if isChosen given (steps.getLastD "") && !steps.dropLast.any (fits given '/') then
          some (if path = "" then name else Path.join path name)
        else none
    | _ => none

-- The number that an option gives.
def count? (given : Given) (letters : List Char) (fault : String → String) :
    Task (Option Nat) := do
  match (given.last? letters).bind fun c => given.value? c with
  | none => pure none
  | some text =>
      match text.toNat? with
      | some n => pure (some n)
      | none => Task.fail (fault text) 2

end Grep

-- The search in the way that one of three names stands for.
def grepAs (kind : Char) : Task Nat := do
  let call ← read
  -- a number alone is so much context
  let args := call.args.flatMap fun a => match a.toList with
    | '-' :: d :: more =>
        if (d :: more).all Char.isDigit then ["-C", String.ofList (d :: more)] else [a]
    | _ => [a]
  let given ← ReaderT.adapt (fun (c : Call) => { c with args := args })
    (Task.arguments Grep.grammar)
  let context := ": invalid context length argument"
  let around ← Grep.count? given ['C'] (· ++ context)
  let after := (← Grep.count? given ['A'] (· ++ context)).or around
  let before := (← Grep.count? given ['B'] (· ++ context)).or around
  let most ← Grep.count? given ['m'] fun _ => "invalid max count"
  let kinds := (if kind = 'G' then [] else [kind]) ++
    (given.options.map Prod.fst).filter fun c => c ∈ ['E', 'F', 'G', 'P']
  if kinds.eraseDups.length > 1 then Task.fail "conflicting matchers specified" 2
  let kind := kinds.headD 'G'
  let listed ← (given.options.filter fun o => o.1 = 'f').mapM fun o => do
    match ← Task.input o.2 with
    | .ok data => pure (splitLines data).1
    | .error e => Task.fail (o.2 ++ ": " ++ e.reason) 2
  let written := (given.options.filter fun o => o.1 = 'e').map fun o => Text.bytesOf o.2
  let isGiven := given.has 'e' || given.has 'f'
  if !isGiven && given.operands.isEmpty then do
    discard (Task.act (Act.write 2 (Text.bytesOf ("Usage: " ++ call.name ++ " " ++
      Grep.grammar.form ++ "\nTry '" ++ call.name ++ " --help' for more information.\n"))))
    pure 2
  else do
    let texts := if isGiven then written.flatMap (splitAt 10) ++ listed.flatten
      else splitAt 10 (Text.bytesOf (given.operands.headD ""))
    let paths := if isGiven then given.operands else given.operands.drop 1
    let lazyToo := kind = 'P'
    let patterns ← texts.mapM fun text =>
      if kind = 'F' then pure (Grep.plainPattern text)
      else match Regex.parse ⟨kind = 'E' || lazyToo, false, lazyToo⟩ text with
        | .ok p => do
            p.warnings.forM fun w => Task.warn ("warning: " ++ w)
            pure p.regex
        | .error f => Task.fail f.message 2
    let deep := given.has 'r' || given.has 'R' || given.value? 'd' = some "recurse"
    let isBare := paths.isEmpty
    let paths := if isBare then [if deep then "." else "-"] else paths
    let named := given.last? ['h', 'H'] = some 'H' ||
      !given.has 'h' && (deep && (isBare || (← paths.anyM isDirectory)) || paths.length > 1)
    let search : Grep.Search := {
      pattern := Grep.bounded given (Grep.anyOf patterns)
      manner := { folded := given.has 'i' || given.has 'y', first := lazyToo }
      given := given, named := named, before := before, after := after, most := most }
    let t ← Task.act Act.files
    let cwd ← Task.act Act.cwd
    let all := paths.flatMap fun p => match t.locate cwd p with
      | .ok place =>
          if p = "-" then [p]
          else if t.isDirectory place then
            if deep then Grep.below given t place (if isBare then "" else p)
            else if given.value? 'd' = some "skip" then [] else [p]
          else if Grep.isChosen given ((Tree.names p).getLastD "") then [p] else []
      | .error _ => [p]
    let (found, failed) ← all.foldlM (fun (state : Bool × Bool) p => do
      let isQuiet := ['q', 'l', 'L', 'c'].any given.has
      if given.has 'q' && state.1 then pure state
      else
        let input ← withInput p fun stream => do
          let isOwn ← if isQuiet || p = "-" then pure false
            else Option.isSome <$> outputPlaces stream
          if isOwn then pure (.error (.other "input file is also the output"))
          else Task.act (Act.readAll stream)
        match input with
        | .error e => do
            if !given.has 's' then Task.warn (p ++ ": " ++ e.reason)
            pure (state.1, true)
        | .ok data => do
            let name := if p = "-" then (given.value? '<').getD "(standard input)" else p
            let found ← Grep.inText search name data
            pure (state.1 || found, state.2)) (false, false)
    pure (if failed && !(given.has 'q' && found) then 2 else if found then 0 else 1)

end Conformance.Tool
