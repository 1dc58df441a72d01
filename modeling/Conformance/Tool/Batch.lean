import Conformance.Tool.Start

-- A command for the words of an input.
namespace Conformance.Tool

open Machine (Act Ending)
open Text (Bytes)

namespace Batch

-- How the input is cut, and how many pieces a command takes.
structure Plan where
  -- what stands between the pieces, if no quotes and blanks count
  separator : Option String := none
  ending : Option String := none
  replaced : Option String := none
  perLine : Option Nat := none
  perCommand : Option Nat := none
  skipsEmpty : Bool := false
  shows : Bool := false

-- What was read, latest first, and the mark of a quotation that is not closed.
structure Reading where
  items : List String := []
  unclosed : Option Char := none

-- A word under way, if one was begun.
abbrev Word := Option (List Char)

def Reading.with (r : Reading) (word : Word) : Reading :=
  match word with
  | some cs => { r with items := String.ofList cs.reverse :: r.items }
  | none => r

-- The pieces of a text in which quotes and backslashes protect. They end at
-- blanks, or at the ends of lines alone.
def pieces (linewise : Bool) : List Char → Option Char → Word → Reading → Reading
  | [], none, word, r => r.with word
  | [], some q, _, r => { r with unclosed := some q }
  | c :: rest, some q, word, r =>
      if c = q then pieces linewise rest none word r
      else if c = '\n' then { r with unclosed := some q }
      else pieces linewise rest (some q) (some (c :: word.getD [])) r
  | '\\' :: c :: rest, none, word, r =>
      pieces linewise rest none (some (c :: word.getD [])) r
  | c :: rest, none, word, r =>
      if c = '"' || c = '\'' then pieces linewise rest (some c) (some (word.getD [])) r
      else if c = '\n' then pieces linewise rest none none (r.with word)
      else if c.isWhitespace && (!linewise || word.isNone) then
        pieces linewise rest none none (r.with word)
      else pieces linewise rest none (some (c :: word.getD [])) r

-- The lines of a text, where a blank at the end of one makes the next one go
-- on with it.
def logicalLines (text : String) : List String :=
  let lines := (text.splitOn "\n").filter (· ≠ "")
  let isOpen (line : String) : Bool := line.toList.getLast?.any fun c => c = ' ' || c = '\t'
  (lines.foldl (fun (done : List String) line =>
    match done with
    | last :: others => if isOpen last then (last ++ line) :: others else line :: done
    | [] => [line]) []).reverse

-- Some things in groups of so many.
def groups (size : Nat) : Nat → List α → List (List α)
  | 0, _ => []
  | _, [] => []
  | fuel + 1, xs => xs.take size :: groups size fuel (xs.drop size)

-- The commands that are run, and the mark of a quotation that is not closed.
def commands (p : Plan) (command : List String) (text : String) :
    List (List String) × Option Char :=
  let upToEnd (items : List String) : List String :=
    p.ending.elim items fun mark => items.takeWhile (· ≠ mark)
  let r : Reading := match p.separator with
    | some mark =>
        let found := text.splitOn mark
        { items := (if found.getLast? = some "" then found.dropLast else found).reverse }
    | none => pieces p.replaced.isSome text.toList none none {}
  let items := upToEnd r.items.reverse
  let runs := match p.replaced, p.perLine with
    | some mark, _ => items.map fun item => command.map fun word =>
        String.intercalate item (word.splitOn mark)
    | none, some count =>
        let lines := (logicalLines text).map fun line =>
          (pieces false line.toList none none {}).items.reverse
        (groups count (lines.length + 1) lines).map fun group => command ++ group.flatten
    | none, none =>
        let size := p.perCommand.getD (items.length + 1)
        let all := groups (max size 1) (items.length + 1) items
        -- a group that may still grow is not run before what is wrong is met
        let whole := if r.unclosed.isSome then all.filter fun g => g.length = size else all
        whole.map (command ++ ·)
  let isNothing := runs.isEmpty && r.unclosed.isNone && p.replaced.isNone && !p.skipsEmpty
  (if isNothing then [command] else runs, r.unclosed)

-- One command. Some endings let no other command follow.
def launched (p : Plan) (command : List String) : Task Bool := do
  let call ← read
  let name := command.headD ""
  if p.shows then
    discard (Task.act (Act.write 2 (Text.bytesOf (String.intercalate " " command ++ "\n"))))
  let child ← Task.act (Act.fork (((do
    let error ← launch call.environment name (command.drop 1)
    discard (Act.write 2 (Text.bytesOf (call.name ++ ": " ++ name ++ ": " ++
      error.reason ++ "\n")))
    pure (launchStatus error) : Act Nat)) fun status => .done (.exited status)))
  match (← Task.act (Act.wait (some child) .toTheEnd)).map Prod.snd with
  | none | some (.exited 0) => pure true
  | some (.exited n) =>
      if n = 255 then Task.fail (name ++ ": exited with status 255; aborting") 124
      else if n = 126 || n = 127 then throw n
      else pure false
  | some (.killed n) => Task.fail (name ++ ": terminated by signal " ++ toString n) 125

def grammar : Grammar := {
  flags := ['0', 'o', 'p', 'r', 't', 'x'], valued := ['a', 'd', 'E', 'I', 'L', 'n', 'P', 's']
  attached := ['e', 'i', 'l'], mixed := false
  long := [("null", '0'), ("arg-file", 'a'), ("delimiter", 'd'), ("eof", 'e'), ("replace", 'i'),
    ("max-lines", 'l'), ("max-args", 'n'), ("max-procs", 'P'), ("max-chars", 's'),
    ("no-run-if-empty", 'r'), ("open-tty", 'o'), ("verbose", 't'), ("interactive", 'p'),
    ("exit", 'x')] }

def count (letter : Char) (text : String) (least : Nat) : Task Nat :=
  match text.toNat? with
  | some n =>
      if n < least then
        Task.refuse grammar ("value " ++ text ++ " for -" ++ String.ofList [letter] ++
          " option should be >= " ++ toString least)
      else pure n
  | none => Task.refuse grammar ("invalid number \"" ++ text ++ "\" for -" ++
      String.ofList [letter] ++ " option")

def exclusive (former latter name : String) : Task Unit :=
  Task.warn ("warning: options " ++ former ++ " and " ++ latter ++
    " are mutually exclusive, ignoring previous " ++ name ++ " value")

def withReplaced (p : Plan) (mark : String) : Task Plan := do
  if p.perCommand.isSome then exclusive "--max-args" "--replace/-I/-i" "--max-args"
  if p.perLine.isSome then exclusive "--max-lines" "--replace/-I/-i" "--max-lines"
  pure { p with replaced := some mark, perCommand := none, perLine := none }

def withLines (p : Plan) (n : Nat) : Task Plan := do
  if p.perCommand.isSome then exclusive "--max-args" "--max-lines/-l" "--max-args"
  if p.replaced.isSome then exclusive "--replace" "--max-lines/-l" "--replace"
  pure { p with perLine := some n, perCommand := none, replaced := none }

-- A plan changed by one option.
def withOption (p : Plan) (letter : Char) (text : String) : Task Plan := do
  match letter with
  | '0' => pure { p with separator := some "\x00" }
  | 'd' =>
      match (Shell.escapesCarriedOut .program text).1 with
      | [b] => pure { p with separator := some (Text.lossy [b]) }
      | _ => Task.fail ("Invalid input delimiter specification " ++ text ++
          ": the delimiter must be either a single character or an escape sequence " ++
          "starting with \\.") 1
  | 'E' | 'e' => pure { p with ending := if text = "" then none else some text }
  | 'I' => withReplaced p text
  | 'i' => withReplaced p (if text = "" then "\x7b\x7d" else text)
  | 'L' => do withLines p (← count 'L' text 1)
  | 'l' => do withLines p (← if text = "" then pure 1 else count 'l' text 1)
  | 'n' => do
      let n ← count 'n' text 1
      if p.perLine.isSome then exclusive "--max-lines" "--max-args/-n" "--max-lines"
      if p.replaced.isSome && n = 1 then pure p
      else do
        if p.replaced.isSome then exclusive "--replace" "--max-args/-n" "--replace"
        pure { p with perCommand := some n, perLine := none, replaced := none }
  | 'P' => do
      discard (count 'P' text 0)
      pure p
  | 's' => do
      discard (count 's' text 1)
      pure p
  | 'r' => pure { p with skipsEmpty := true }
  | 't' | 'p' => pure { p with shows := true }
  | _ => pure p

end Batch

def xargs : Task Nat := do
  let given ← Task.arguments Batch.grammar
  let plan ← given.options.foldlM (fun p o => Batch.withOption p o.1 o.2) ({} : Batch.Plan)
  let source := (given.value? 'a').getD "-"
  let data ← match ← Task.input source with
    | .ok data => pure data
    | .error e => Task.fail ("Cannot open input file " ++ quoted source ++ ": " ++ e.reason) 1
  let command := if given.operands.isEmpty then ["echo"] else given.operands
  let (runs, unclosed) := Batch.commands plan command (Text.lossy data)
  let status ← runs.foldlM (fun status run => do
    pure (if ← Batch.launched plan run then status else 123)) 0
  match unclosed with
  | some q =>
      Task.fail ("unmatched " ++ (if q = '"' then "double" else "single") ++
        " quote; by default quotes are special to xargs unless you use the -0 option") 1
  | none => pure status

end Conformance.Tool
