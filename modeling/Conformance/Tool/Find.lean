import Conformance.Shell.Pattern
import Conformance.Tool.Files
import Conformance.Tool.Start

-- A search through directories.
namespace Conformance.Tool

open Machine (Act Ending)
open Text (Bytes)

namespace Find

-- What is asked of each thing that is met, and what is done with it.
inductive Query where
  | always (truth : Bool)
  | named (folded : Bool) (pattern : List Shell.Glob)
  | atPath (folded : Bool) (pattern : List Shell.Glob)
  | kind (letters : List Char)
  | empty
  | executable
  | size (sign : Char) (count unit : Nat)
  | mode (sign : Char) (bits : Nat)
  | aged (sign : Char) (count : Nat)
  | print (mark : Bytes)
  | shown (form : List Char)
  | delete
  | prune
  | quit
  | run (command : List String)
  -- the command is run at the end, for all that it was asked for
  | runAll (number : Nat) (command : List String)
  | not (q : Query)
  | both (a b : Query)
  | either (a b : Query)
  | second (a b : Query)

structure Plan where
  query : Query := .always true
  deepest : Option Nat := none
  shallowest : Nat := 0
  contentsFirst : Bool := false
  follows : Bool := false
  -- whether anything is done but searching
  acts : Bool := false
  -- the predicate that was read last
  last : String := ""
  batches : List (Nat × List String) := []

-- How far a search has come.
structure Progress where
  pruned : Bool := false
  stopped : Bool := false
  failed : Bool := false
  -- latest first
  gathered : List (Nat × Path) := []

-- A thing that is met.
structure Visit where
  start : Path
  path : Path
  depth : Nat
  place : Place
  node : Node

def kindOf : Node → Char
  | .directory => 'd'
  | .link _ => 'l'
  | .device _ => 'c'
  | _ => 'f'

def bitsOf : Node → Nat
  | .directory => 493
  | .file _ false => 420
  | .link _ => 511
  | .device _ => 438
  | _ => 493

def bytesOf : Node → Nat
  | .file data _ => data.length
  | .link target => target.utf8ByteSize
  | .directory => 4096
  | _ => 0

def compares (sign : Char) (n count : Nat) : Bool :=
  if sign = '+' then count < n else if sign = '-' then n < count else n = count

-- The part of a path below the start.
def below (v : Visit) : String :=
  let rest := v.path.toList.drop v.start.length
  String.ofList (if rest.head? = some '/' then rest.drop 1 else rest)

def octal (n : Nat) : String :=
  String.ofList (Nat.toDigits 8 n)

-- A form with what is known of a thing in it.
def formed (v : Visit) : List Char → List Char
  | '%' :: c :: rest =>
      let text := match c with
        | 'p' => v.path
        | 'f' => Naming.lastPart v.path
        | 'h' =>
            let stem := v.path.toList.take (v.path.length - (Naming.lastPart v.path).length)
            if stem.isEmpty then "." else String.ofList (if stem.length > 1 then stem.dropLast
              else stem)
        | 'P' => below v
        | 'H' => v.start
        | 'd' => toString v.depth
        | 's' => toString (bytesOf v.node)
        | 'y' => String.ofList [kindOf v.node]
        | 'm' => octal (bitsOf v.node)
        | 'l' => (match v.node with
            | .link target => target
            | _ => "")
        | '%' => "%"
        | c => String.ofList ['%', c]
      text.toList ++ formed v rest
  | '\\' :: c :: rest =>
      (match c with
        | 'n' => '\n'
        | 't' => '\t'
        | '0' => '\x00'
        | c => c) :: formed v rest
  | c :: rest => c :: formed v rest
  | [] => []

-- A command with a path in place of each pair of braces.
def filledIn (path : Path) (command : List String) : List String :=
  command.map fun word => String.intercalate path (word.splitOn "\x7b\x7d")

def launched (command : List String) : Task Bool := do
  let call ← read
  let child ← spawn call.environment (command.headD "") (command.drop 1) ""
  pure ((← Task.act (Act.wait (some child) .toTheEnd)).any fun ended =>
    ended.2 = Ending.exited 0)

def removed (v : Visit) : Task Bool := do
  let t ← Task.act Act.files
  if v.path = "." then pure true
  else if v.node = .directory && !(t.children v.place).isEmpty then do
    Task.warn ("cannot delete " ++ quoted v.path ++ ": " ++ IoError.notEmpty.reason)
    pure false
  else do
    changeStore fun st => st.remove v.place
    pure true

-- Whether a thing is what is asked for. What is asked has its effects in order.
def Query.holds (v : Visit) : Query → Progress → Task (Bool × Progress)
  | always truth, s => pure (truth, s)
  | named folded pattern, s => do
      let name := Naming.lastPart v.path
      pure (Shell.Glob.fits pattern (if folded then name.toLower else name).toList, s)
  | atPath folded pattern, s =>
      pure (Shell.Glob.fits pattern (if folded then v.path.toLower else v.path).toList, s)
  | kind letters, s => pure (letters.contains (kindOf v.node), s)
  | empty, s => do
      let t ← Task.act Act.files
      pure ((match v.node with
        | .directory => (t.children v.place).isEmpty
        | .file data _ => data.isEmpty
        | _ => false), s)
  | executable, s => pure (bitsOf v.node % 2 = 1, s)
  | size sign count unit, s =>
      pure (compares sign ((bytesOf v.node + unit - 1) / unit) count, s)
  | mode sign bits, s =>
      let own := bitsOf v.node
      pure (if sign = '-' then own &&& bits = bits
        else if sign = '/' then bits = 0 || own &&& bits ≠ 0
        else own = bits, s)
  | aged sign count, s => pure (compares sign 0 count, s)
  | print mark, s => do
      Task.put (Text.bytesOf v.path ++ mark)
      pure (true, s)
  | shown form, s => do
      Task.say (String.ofList (formed v form))
      pure (true, s)
  | delete, s => do
      let done ← removed v
      pure (done, { s with failed := s.failed || !done })
  | prune, s => pure (true, { s with pruned := true })
  | quit, s => pure (true, { s with stopped := true })
  | run command, s => do
      let done ← launched (filledIn v.path command)
      pure (done, s)
  | runAll number _, s => pure (true, { s with gathered := (number, v.path) :: s.gathered })
  | not q, s => do
      let (truth, s) ← q.holds v s
      pure (!truth, s)
  | both a b, s => do
      let (truth, s) ← a.holds v s
      if truth && !s.stopped then b.holds v s else pure (false, s)
  | either a b, s => do
      let (truth, s) ← a.holds v s
      if truth || s.stopped then pure (true, s) else b.holds v s
  | second a b, s => do
      let (_, s) ← a.holds v s
      if s.stopped then pure (true, s) else b.holds v s

-- The thing at a place, or what it leads to where links are followed.
def nodeAt? (plan : Plan) (t : Tree) (place : Place) : Option (Place × Node) := do
  let node ← t.node? place
  match node with
  | .link path =>
      let target := (t.locate place.dropLast path).toOption
      match plan.follows, target.bind fun p => (t.node? p).map (p, ·) with
      | true, some found => some found
      | _, _ => some (place, node)
  | node => some (place, node)

-- A walk through a thing and all that is below it.
def walk (plan : Plan) (start : Path) : Nat → Place → Path → Nat → Progress → Task Progress
  | 0, _, _, _, s => pure s
  | fuel + 1, place, path, depth, s => do
      let t ← Task.act Act.files
      match nodeAt? plan t place with
      | none => pure s
      | some (inner, node) => do
          let visit (s : Progress) : Task Progress :=
            if depth < plan.shallowest || s.stopped then pure s
            else do
              let (_, s) ← plan.query.holds ⟨start, path, depth, inner, node⟩ s
              pure s
          let inside (s : Progress) : Task Progress := do
            let t ← Task.act Act.files
            if node ≠ .directory || plan.deepest.any (· ≤ depth) then pure s
            else (t.children inner).foldlM (fun s name =>
              if s.stopped then pure s
              else walk plan start fuel (inner ++ [name]) (Path.join path name) (depth + 1) s) s
          if plan.contentsFirst then do
            let s ← inside s
            visit s
          else do
            let s ← visit { s with pruned := false }
            if s.pruned then pure { s with pruned := false } else inside s

-- The words that are not read yet, and the plan so far.
abbrev Reader := StateT (List String × Plan) Task

def failing (text : String) : Reader α :=
  (Task.fail text 1 : Task α)

def ticked (word : String) : String :=
  "\x60" ++ word ++ "'"

-- The word behind a predicate.
def argument (predicate : String) : Reader String := do
  let (words, plan) ← get
  match words with
  | word :: rest => do
      set (rest, plan)
      pure word
  | [] => failing ("missing argument to " ++ ticked predicate)

def globOf (folded : Bool) (text : String) : List Shell.Glob :=
  Shell.Glob.parse ((if folded then text.toLower else text).toList.map fun c => (c, false))

def depthOf (predicate : String) : Reader Nat := do
  let text ← argument predicate
  match text.toNat? with
  | some n => pure n
  | none => failing ("Expected a positive decimal integer argument to " ++ predicate ++
      ", but got " ++ quoted text)

-- A sign in front of a number, and what is behind it.
def signed (text : String) : Char × List Char × List Char :=
  let (sign, rest) := match text.toList with
    | '+' :: rest => ('+', rest)
    | '-' :: rest => ('-', rest)
    | rest => ('=', rest)
  let digits := rest.takeWhile Char.isDigit
  (sign, digits, rest.drop digits.length)

def kinds : List Char → Reader (List Char)
  | [] => failing "Arguments to -type should contain at least one letter"
  | c :: rest => do
      if !(['b', 'c', 'd', 'f', 'l', 'p', 's', 'D'].contains c) then
        failing ("Unknown argument to -type: " ++ String.ofList [c])
      match rest with
      | [] => pure [c]
      | ',' :: more => do
          let others ← kinds more
          pure (c :: others)
      | _ => failing "Must separate multiple arguments to -type using: ','"

-- The command up to its end, and whether it takes many things at once.
def commandOf (predicate : String) : Reader (List String × Bool) := do
  let (words, plan) ← get
  let rec split (seen : List String) : List String → Option (List String × Bool × List String)
    | [] => none
    | ";" :: rest => some (seen.reverse, false, rest)
    | "+" :: rest =>
        if seen.head? = some "\x7b\x7d" then some ((seen.drop 1).reverse, true, rest)
        else split ("+" :: seen) rest
    | word :: rest => split (word :: seen) rest
  match split [] words with
  | some (command, many, rest) => do
      set (rest, plan)
      if command.isEmpty && !many then failing ("missing argument to " ++ ticked predicate)
      pure (command, many)
  | none => failing ("missing argument to " ++ ticked predicate)

def adjust (change : Plan → Plan) : Reader Unit :=
  MonadState.modifyGet fun (state : List String × Plan) => ((), (state.1, change state.2))

def acting (q : Query) : Reader Query := do
  adjust fun plan => { plan with acts := true }
  pure q

-- A predicate with its arguments.
def predicate (word : String) : Reader Query := do
  match word with
  | "-name" => pure (.named false (globOf false (← argument word)))
  | "-iname" => pure (.named true (globOf true (← argument word)))
  | "-path" | "-wholename" => pure (.atPath false (globOf false (← argument word)))
  | "-ipath" | "-iwholename" => pure (.atPath true (globOf true (← argument word)))
  | "-type" | "-xtype" => pure (.kind (← kinds (← argument word).toList))
  | "-empty" => pure .empty
  | "-executable" => pure .executable
  | "-readable" | "-writable" | "-true" => pure (.always true)
  | "-false" => pure (.always false)
  | "-mount" | "-xdev" | "-noleaf" | "-daystart" | "-warn" | "-nowarn" => pure (.always true)
  | "-follow" => do
      adjust fun plan => { plan with follows := true }
      pure (.always true)
  | "-depth" | "-d" => do
      adjust fun plan => { plan with contentsFirst := true }
      pure (.always true)
  | "-maxdepth" => do
      let n ← depthOf word
      adjust fun plan => { plan with deepest := some n }
      pure (.always true)
  | "-mindepth" => do
      let n ← depthOf word
      adjust fun plan => { plan with shallowest := n }
      pure (.always true)
  | "-newer" | "-anewer" | "-cnewer" => do
      let p ← argument word
      match ← (look true p : Task _) with
      | .ok _ => pure (.always false)
      | .error e => failing (quoted p ++ ": " ++ e.reason)
  | "-mtime" | "-atime" | "-ctime" | "-mmin" | "-amin" | "-cmin" => do
      let text ← argument word
      let (sign, digits, rest) := signed text
      if digits.isEmpty || !rest.isEmpty then
        failing ("invalid argument " ++ ticked text ++ " to " ++ ticked word)
      pure (.aged sign ((String.ofList digits).toNat?.getD 0))
  | "-size" => do
      let text ← argument word
      let (sign, digits, rest) := signed text
      let units : List (List Char × Nat) := [([], 512), (['b'], 512), (['c'], 1), (['w'], 2),
        (['k'], 1024), (['M'], 1048576), (['G'], 1073741824)]
      match (String.ofList digits).toNat?, units.find? fun u => u.1 = rest with
      | some n, some u => pure (.size sign n u.2)
      | _, _ => failing ("invalid -size type " ++ ticked (String.ofList
          ((text.toList.reverse.take 1))))
  | "-perm" => do
      let text ← argument word
      let (sign, digits) := match text.toList with
        | '-' :: rest => ('-', rest)
        | '/' :: rest => ('/', rest)
        | rest => ('=', rest)
      if !digits.isEmpty && digits.all fun c => '0' ≤ c && c ≤ '7' then
        pure (.mode sign (digits.foldl (fun n c => 8 * n + (c.toNat - 48)) 0))
      else match String.ofList digits with
        | "u+x" | "u=x" => pure (.mode sign 64)
        | "g+x" | "g=x" => pure (.mode sign 8)
        | "o+x" | "o=x" => pure (.mode sign 1)
        | "a+x" | "+x" | "a=x" | "ugo+x" => pure (.mode sign 73)
        | _ => failing ("invalid mode " ++ quoted text)
  | "-print" => acting (.print [10])
  | "-print0" => acting (.print [0])
  | "-printf" => do acting (.shown (← argument word).toList)
  | "-delete" => do
      adjust fun plan => { plan with contentsFirst := true }
      acting .delete
  | "-prune" => pure .prune
  | "-quit" => acting .quit
  | "-exec" => do
      let (command, many) ← commandOf word
      if many then
        let number := (← get).2.batches.length
        adjust fun plan => { plan with batches := plan.batches ++ [(number, command)] }
        acting (.runAll number command)
      else acting (.run command)
  | word =>
      if word.startsWith "-" then failing ("unknown predicate " ++ ticked word)
      else do
        let last := (← get).2.last
        let t ← (Task.act Act.files : Task _)
        let cwd ← (Task.act Act.cwd : Task _)
        let isThere := (t.locate cwd word).toOption.any fun place => (t.node? place).isSome
        (Task.warn ("paths must precede expression: " ++ ticked word) : Task Unit)
        if isThere && ["-name", "-iname", "-path", "-wholename"].contains last then
          failing ("possible unquoted pattern after predicate " ++ ticked last ++ "?")
        else (throw 1 : Task _)

def isOr (word : String) : Bool :=
  word = "-o" || word = "-or"

def isAnd (word : String) : Bool :=
  word = "-a" || word = "-and"

mutual

-- Expressions in turn, then alternatives, then what must hold together.
def inTurn : Nat → Reader Query
  | 0 => pure (.always true)
  | fuel + 1 => do
      let first ← alternatives fuel
      match ← get with
      | ("," :: rest, plan) => do
          set (rest, plan)
          let next ← inTurn fuel
          pure (.second first next)
      | _ => pure first

def alternatives : Nat → Reader Query
  | 0 => pure (.always true)
  | fuel + 1 => do
      let first ← together fuel
      match ← get with
      | (word :: rest, plan) =>
          if isOr word then do
            if rest.isEmpty then failing ("expected an expression after " ++ quoted word)
            set (rest, plan)
            let next ← alternatives fuel
            pure (.either first next)
          else pure first
      | _ => pure first

def together : Nat → Reader Query
  | 0 => pure (.always true)
  | fuel + 1 => do
      let first ← single fuel
      match ← get with
      | ([], _) => pure first
      | (word :: rest, plan) =>
          if isOr word || word = "," || word = ")" then pure first
          else do
            if isAnd word then
              if rest.isEmpty then failing ("expected an expression after " ++ quoted word)
              set (rest, plan)
            let next ← together fuel
            pure (.both first next)

def single : Nat → Reader Query
  | 0 => pure (.always true)
  | fuel + 1 => do
      let (words, plan) ← get
      match words with
      | [] => pure (.always true)
      | word :: rest => do
          set (rest, plan)
          if word = "!" || word = "-not" then
            if rest.isEmpty then failing ("expected an expression after " ++ quoted word)
            let inner ← single fuel
            pure (.not inner)
          else if word = "(" then
            if rest.isEmpty then
              failing ("invalid expression; expected to find a ')' but didn't see one. " ++
                "Perhaps you need an extra predicate after '('")
            if rest.head? = some ")" then
              failing "invalid expression; empty parentheses are not allowed."
            let inner ← inTurn fuel
            match ← get with
            | (")" :: rest, plan) => do
                set (rest, plan)
                pure inner
            | _ => failing ("invalid expression; I was expecting to find a ')' somewhere " ++
                "but did not see one.")
          else if isOr word || isAnd word || word = "," then
            failing ("invalid expression; you have used a binary operator " ++ quoted word ++
              " with nothing before it.")
          else do
            let query ← predicate word
            adjust fun plan => { plan with last := word }
            pure query

end

def plan (follows : Bool) (words : List String) : Task Plan := do
  let whole : Reader Query := do
    if words.isEmpty then pure (.always true)
    else do
      let query ← inTurn (4 * words.length + 4)
      if ((← get).1.head?) = some ")" then failing "you have too many ')'"
      pure query
  let (query, _, plan) ← whole.run (words, { follows := follows })
  pure { plan with query := if plan.acts then query else .both query (.print [10]) }

def isExpression (arg : String) : Bool :=
  match arg.toList with
  | '-' :: _ :: _ => true
  | ['!'] => true
  | ['('] => true
  | _ => false

end Find

def find : Task Nat := do
  let args := (← read).args
  let switches := args.takeWhile ["-L", "-H", "-P"].contains
  let rest := args.drop switches.length
  let starts := rest.takeWhile fun a => !Find.isExpression a
  let plan ← Find.plan (switches.getLast? = some "-L") (rest.drop starts.length)
  let (s, done) ← (if starts.isEmpty then ["."] else starts).foldlM
    (fun (state : Find.Progress × Bool) start => do
      if state.1.stopped then pure state
      else match ← look (switches.getLastD "-P" ≠ "-P") start with
        | .error e => do
            match ← look false start with
            | .ok (place, _) => do
                let s ← Find.walk plan start 1 place start 0 state.1
                pure (s, state.2)
            | .error _ => do
                Task.warn (quoted start ++ ": " ++ e.reason)
                pure (state.1, false)
        | .ok (place, _) => do
            let t ← Task.act Act.files
            let s ← Find.walk plan start (t.nodes.length + 1) place start 0 state.1
            pure (s, state.2)) ({}, true)
  let ended ← Task.all plan.batches fun batch => do
    let paths := (s.gathered.reverse.filter fun entry => entry.1 = batch.1).map Prod.snd
    if paths.isEmpty then pure true else Find.launched (batch.2 ++ paths)
  pure (Task.statusOf (done && ended && !s.failed))

end Conformance.Tool
