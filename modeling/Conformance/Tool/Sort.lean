import Conformance.Tool.Order

-- Programs that put lines in order or look at lines next to each other.
namespace Conformance.Tool

open Machine (Act)
open Text (Bytes)

namespace Sorting

-- What a call of sort asks for.
structure Plan where
  overall : Ranking.Manner := {}
  keys : List Ranking.Key := []
  separator : Option UInt8 := none
  output : Option Path := none
  unique : Bool := false
  stable : Bool := false
  merges : Bool := false
  -- the letter of the check
  check : Option Char := none
  mark : UInt8 := 10

def incompatible (letters : String) : Task α :=
  Task.fail ("options " ++ quoted ("-" ++ letters) ++ " are incompatible") 2

def separatorOf (text : String) : Task UInt8 :=
  match Text.bytesOf text with
  | [b] => pure b
  | [92, 48] => pure 0
  | [] => Task.fail "empty tab" 2
  | _ => Task.fail ("multi-character tab " ++ quoted text) 2

-- The letter of an order by its long name.
def orderNamed (name : String) : Task Char := do
  let names := ["general-numeric", "human-numeric", "month", "numeric", "random", "version"]
  let name ← Task.choice "--sort" name (names.map fun n => [n]) 1
  pure (['g', 'h', 'M', 'n', 'R', 'V'].getD ((names.idxOf? name).getD 3) 'n')

def checkNamed (p : Plan) (letter : Char) : Task Plan :=
  if p.check.any (· ≠ letter) then incompatible "cC" else pure { p with check := some letter }

-- A size for the buffer, which changes nothing.
def bufferSize (text : String) : Task Unit :=
  let rest := text.toList.dropWhile Char.isDigit
  if text.toList.head?.any Char.isDigit then
    if rest = [] ∨ rest = ['%'] ∨ (rest.length = 1 ∧ "bkKMGTPEZY".toList.contains (rest.headD ' '))
    then pure ()
    else Task.fail ("invalid suffix in -S argument " ++ quoted text) 2
  else Task.fail ("invalid -S argument " ++ quoted text) 2

-- A plan changed by one option. The keys wait for all letters of the call.
def withOption (p : Plan) (letter : Char) (text : String) : Task Plan := do
  match letter with
  | 'u' => pure { p with unique := true }
  | 's' => pure { p with stable := true }
  | 'm' => pure { p with merges := true }
  | 'z' => pure { p with mark := 0 }
  | 'c' => checkNamed p 'c'
  | 'C' => checkNamed p 'C'
  | '?' =>
      let names := [["quiet", "silent"], ["diagnose-first"]]
      let name ← if text = "" then pure "diagnose-first"
        else Task.choice "--check" text names 1
      checkNamed p (if name = "diagnose-first" then 'c' else 'C')
  | 'W' => do
      let letter ← orderNamed text
      pure { p with overall := (p.overall.withLetter .both letter).getD p.overall }
  | 't' =>
      let b ← separatorOf text
      if p.separator.any (· ≠ b) then Task.fail "incompatible tabs" 2
      else pure { p with separator := some b }
  | 'o' =>
      if p.output.any (· ≠ text) then Task.fail "multiple output files specified" 2
      else pure { p with output := some text }
  | 'S' => do
      bufferSize text
      pure p
  | 'k' =>
      match Ranking.keyOf {} text with
      | .ok key => pure { p with keys := p.keys ++ [key] }
      | .error fault => Task.fail (fault.message text) 2
  | letter => pure { p with overall := (p.overall.withLetter .both letter).getD p.overall }

-- A plan whose keys are complete. Without keys, the line is one.
def complete (p : Plan) : Task Plan := do
  let keys := p.keys.map fun key =>
    if key.manner = {} then { key with manner := p.overall } else key
  let keys := if keys.isEmpty && { p.overall with reversed := false } ≠ {} then
      [{ manner := p.overall }]
    else keys
  match (keys.filterMap fun key => key.manner.clash?).head? with
  | some letters => incompatible letters
  | none => pure { p with keys := keys }

def order (p : Plan) : Bytes → Bytes → Ordering :=
  Ranking.compareLines p.keys p.separator p.overall (p.stable || p.unique)

-- The text of a key from an old form, in which fields count from zero.
def shifted (arg : String) (isLast : Bool) : String :=
  let digits (cs : List Char) : List Char := cs.takeWhile Char.isDigit
  let cs := arg.toList.drop 1
  let field := digits cs
  let rest := cs.drop field.length
  let n := (String.ofList field).toNat?.getD 0
  match rest with
  | '.' :: more =>
      let byte := digits more
      let k := (String.ofList byte).toNat?.getD 0
      let letters := String.ofList (more.drop byte.length)
      if isLast then
        (if k = 0 then toString n else toString (n + 1) ++ "." ++ toString k) ++ letters
      else toString (n + 1) ++ "." ++ toString (k + 1) ++ letters
  | more => toString (if isLast then n else n + 1) ++ String.ofList more

-- Whether a sign and a digit are at the front of an argument.
def isOldPlace (sign : Char) (arg : String) : Bool :=
  match arg.toList with
  | c :: d :: _ => c = sign && d.isDigit
  | _ => false

-- The arguments with the old forms of keys as options. A key may wait for its
-- end.
def modern : Option String → List String → List String
  | none, [] => []
  | some first, [] => ["-k", shifted first false]
  | some first, arg :: rest =>
      if isOldPlace '-' arg then
        "-k" :: (shifted first false ++ "," ++ shifted arg true) :: modern none rest
      else "-k" :: shifted first false ::
        (if isOldPlace '+' arg then modern (some arg) rest else arg :: modern none rest)
  | none, arg :: rest =>
      if arg = "--" then arg :: rest
      else if isOldPlace '+' arg then modern (some arg) rest
      else arg :: modern none rest

-- The lines of each file. One that is missing is told before a directory.
def readAll (p : Plan) (paths : List Path) (opening : String) : Task (List (List Bytes)) := do
  let found ← paths.mapM fun path => do pure (path, ← Task.input path)
  let missing := found.findSome? fun entry => match entry.2 with
    | .error e => if e = .isADirectory then none else some (entry.1, e)
    | .ok _ => none
  if let some (path, e) := missing then
    Task.fail (opening ++ ": " ++ path ++ ": " ++ e.reason) 2
  found.mapM fun entry => match entry.2 with
    | .ok data => pure (splitMarked p.mark data).1
    | .error e => Task.fail ("read failed: " ++ entry.1 ++ ": " ++ e.reason) 2

-- The status that tells whether one file is in order.
def checked (p : Plan) (letter : Char) (paths : List Path) : Task Nat := do
  if let extra :: _ := paths.drop 1 then
    Task.fail ("extra operand " ++ quoted extra ++ " not allowed with -" ++
      String.ofList [letter]) 2
  if p.output.isSome then incompatible (String.ofList [letter, 'o'])
  let lines := (← readAll p paths "open failed").flatten
  match Ranking.disorder? (order p) p.unique 1 lines with
  | none => pure 0
  | some (n, line) => do
      if letter = 'c' then
        Task.warn (paths.headD "-" ++ ":" ++ toString n ++ ": disorder: " ++ Text.lossy line)
      pure 1

def inOrder (p : Plan) (files : List (List Bytes)) : List Bytes :=
  let le (a b : Bytes) : Bool := order p a b ≠ .gt
  let lines := if p.merges then files.foldl (fun done lines => done.merge lines le) []
    else files.flatten.mergeSort le
  if p.unique then Ranking.distinct (order p) lines else lines

end Sorting

def sort : Task Nat := do
  let args := Sorting.modern none (← read).args
  let given ← ReaderT.adapt (fun (c : Call) => { c with args := args }) (Task.arguments {
    flags := ['n', 'g', 'h', 'V', 'R', 'M', 'r', 'f', 'b', 'd', 'i', 'u', 's', 'c', 'C', 'm', 'z']
    valued := ['k', 't', 'o', 'S', 'T', 'y', 'W', 'P'], attached := ['?'], refusal := 2
    long := [("ignore-leading-blanks", 'b'), ("check", '?'), ("compress-program", 'T'),
      ("dictionary-order", 'd'), ("ignore-case", 'f'), ("field-separator", 't'),
      ("general-numeric-sort", 'g'), ("ignore-nonprinting", 'i'), ("key", 'k'), ("merge", 'm'),
      ("month-sort", 'M'), ("numeric-sort", 'n'), ("human-numeric-sort", 'h'),
      ("version-sort", 'V'), ("random-sort", 'R'), ("random-source", 'P'), ("sort", 'W'),
      ("output", 'o'), ("reverse", 'r'), ("stable", 's'), ("batch-size", 'P'),
      ("buffer-size", 'S'), ("temporary-directory", 'T'), ("unique", 'u'),
      ("zero-terminated", 'z'), ("parallel", 'P')] })
  let plan ← given.options.foldlM (fun p o => Sorting.withOption p o.1 o.2)
    ({} : Sorting.Plan)
  let plan ← Sorting.complete plan
  let paths := if given.operands.isEmpty then ["-"] else given.operands
  match plan.check with
  | some letter => Sorting.checked plan letter paths
  | none => do
      let files ← Sorting.readAll plan paths "cannot read"
      let out := joinMarked plan.mark (Sorting.inOrder plan files)
      match plan.output with
      | none => Task.putOr 2 out
      | some p =>
          match ← changeFiles fun t cwd => t.write cwd p out with
          | .ok _ => pure ()
          | .error e => Task.fail ("open failed: " ++ p ++ ": " ++ e.reason) 2
      pure 0

namespace Uniq

-- The lines in runs of equal ones, each with its length.
def runs (same : Bytes → Bytes → Bool) (lines : List Bytes) : List (Nat × List Bytes) :=
  (lines.foldl (fun (done : List (Nat × List Bytes)) line =>
    match done with
    | (n, first :: more) :: rest =>
        if same first line then (n + 1, first :: line :: more) :: rest
        else (1, [line]) :: done
    | _ => (1, [line]) :: done) []).reverse.map fun run =>
      (run.1, run.2.take 1 ++ (run.2.drop 1).reverse)

-- Where empty lines stand around groups.
inductive Parting where
  | none
  | before
  | behind
  | between
  | around
deriving DecidableEq, Repr

def parted (p : Parting) (groups : List (List Bytes)) : List Bytes :=
  match p with
  | .none => groups.flatten
  | .before => groups.flatMap fun lines => [] :: lines
  | .behind => groups.flatMap fun lines => lines ++ [[]]
  | .between => (groups.intersperse [[]]).flatten
  | .around => if groups.isEmpty then [] else [] :: groups.flatMap fun lines => lines ++ [[]]

-- The arguments with the old forms of skipping as options.
def modern (args : List String) : List String :=
  args.flatMap fun arg =>
    match arg.toList with
    | c :: d :: more =>
        if (d :: more).all Char.isDigit && c = '-' then ["-f", String.ofList (d :: more)]
        else if (d :: more).all Char.isDigit && c = '+' then ["-s", String.ofList (d :: more)]
        else [arg]
    | _ => [arg]

def count (given : Given) (letter : Char) (what : String) : Task (Option Nat) :=
  match given.value? letter with
  | Option.none => pure Option.none
  | some text =>
      match text.toNat? with
      | some n => pure (some n)
      | Option.none => Task.fail (text ++ ": invalid number of " ++ what) 1

-- The part of a line that is compared.
def key (fields chars : Nat) (width : Option Nat) (folded : Bool) (line : Bytes) : Bytes :=
  let parts := Ranking.blankFields (line.length + 1) line
  let line := (parts.drop fields).flatten.drop chars
  let line := width.elim line line.take
  if folded then line.map upperByte else line

end Uniq

def uniq : Task Nat := do
  let args := Uniq.modern (← read).args
  let given ← ReaderT.adapt (fun (c : Call) => { c with args := args }) (Task.arguments {
    flags := ['c', 'd', 'D', 'u', 'i', 'z'], valued := ['f', 's', 'w'], attached := ['G', 'A']
    long := [("count", 'c'), ("repeated", 'd'), ("all-repeated", 'A'), ("group", 'G'),
      ("ignore-case", 'i'), ("unique", 'u'), ("skip-fields", 'f'), ("skip-chars", 's'),
      ("check-chars", 'w'), ("zero-terminated", 'z')] })
  let fields ← Uniq.count given 'f' "fields to skip"
  let chars ← Uniq.count given 's' "bytes to skip"
  let width ← Uniq.count given 'w' "bytes to compare"
  let all := given.has 'D' || given.has 'A'
  let parting : Uniq.Parting ← match given.value? 'A', given.value? 'G' with
    | some word, Option.none =>
        if word = "" then pure .none
        else do
          let word ← Task.choice "--all-repeated" word [["none"], ["prepend"], ["separate"]] 1
          pure (if word = "none" then .none else if word = "prepend" then .before else .between)
    | _, some word =>
        if word = "" then pure .between
        else do
          let word ← Task.choice "--group" word
            [["prepend"], ["append"], ["separate"], ["both"]] 1
          pure (if word = "prepend" then .before else if word = "append" then .behind
            else if word = "separate" then .between else .around)
    | Option.none, Option.none => pure .none
  let key := Uniq.key (fields.getD 0) (chars.getD 0) width (given.has 'i')
  let mark : UInt8 := if given.has 'z' then 0 else 10
  if let _ :: _ :: extra :: _ := given.operands then
    Task.misuse ("extra operand " ++ quoted extra) 1
  if given.has 'G' && (all || ['c', 'd', 'u'].any given.has) then
    Task.misuse "--group is mutually exclusive with -c/-d/-D/-u" 1
  if all && given.has 'c' then
    Task.misuse "printing all duplicated lines and repeat counts is meaningless" 1
  let p := given.operands.headD "-"
  let data ← match ← Task.input p with
    | .ok data => pure data
    | .error .isADirectory =>
        Task.fail ("error reading " ++ quoted p ++ ": " ++ IoError.isADirectory.reason) 1
    | .error e => Task.fail (p ++ ": " ++ e.reason) 1
  let runs := Uniq.runs (fun a b => key a = key b) (splitMarked mark data).1
  let chosen := runs.filter fun run =>
    (!(given.has 'd' || all) || run.1 > 1) && (all || !given.has 'u' || run.1 = 1)
  let groups := chosen.map fun run =>
    if given.has 'G' then run.2
    else if all then (if given.has 'u' then run.2.dropLast else run.2)
    else
      let digits := toString run.1
      let front := if given.has 'c' then
          String.ofList (List.replicate (7 - digits.length) ' ') ++ digits ++ " "
        else ""
      (run.2.take 1).map (Text.bytesOf front ++ ·)
  let out := joinMarked mark (Uniq.parted parting groups)
  match given.operands.drop 1 with
  | [] | ["-"] => Task.put out
  | target :: _ =>
      match ← changeFiles fun t cwd => t.write cwd target out with
      | .ok _ => pure ()
      | .error e => Task.fail (target ++ ": " ++ e.reason) 1
  pure 0

end Conformance.Tool
