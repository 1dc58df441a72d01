import Conformance.Tool.Order

-- Programs that compare files.
namespace Conformance.Tool

open Machine (Act)
open Text (Bytes)

namespace Cmp

-- Where two texts differ, with the numbers of lines and of bytes, or where the
-- shorter one ends.
structure Found where
  byte : Nat
  line : Nat
  first : Option UInt8
  second : Option UInt8

-- All places at which two texts differ, up to the end of the shorter one.
def differences : Bytes → Bytes → Nat → Nat → List Found → List Found
  | [], [], _, _, done => done.reverse
  | [], b :: _, n, line, done => (⟨n, line, none, some b⟩ :: done).reverse
  | a :: _, [], n, line, done => (⟨n, line, some a, none⟩ :: done).reverse
  | a :: as, b :: bs, n, line, done =>
      differences as bs (n + 1) (if a = 10 then line + 1 else line)
        (if a = b then done else ⟨n + 1, line, some a, some b⟩ :: done)

def octal (b : UInt8) : String :=
  let digits := String.ofList (Nat.toDigits 8 b.toNat)
  String.ofList (List.replicate (3 - digits.length) ' ') ++ digits

def sign (b : UInt8) : String :=
  let low (n : Nat) : String :=
    if n < 32 then String.ofList ['^', Char.ofNat (n + 64)]
    else if n = 127 then "^?" else String.ofList [Char.ofNat n]
  if b < 128 then low b.toNat else "M-" ++ low (b.toNat - 128)

def widened (s : String) : String :=
  s ++ String.ofList (List.replicate (4 - s.length) ' ')

-- A difference on a line of its own.
def Found.row (f : Found) (width : Nat) (withSigns : Bool) : String :=
  let place := toString f.byte
  let a := f.first.getD 0
  let b := f.second.getD 0
  String.ofList (List.replicate (width - place.length) ' ') ++ place ++ " " ++ octal a ++ " " ++
    (if withSigns then widened (sign a) ++ " " else "") ++ octal b ++
    (if withSigns then " " ++ sign b else "") ++ "\n"

-- One number of bytes to skip, or one for each file.
def skips? (text : String) : Option (Nat × Nat) :=
  match text.splitOn ":" with
  | [both] => (sizeOf? both).map fun n => (n, n)
  | [first, second] => do
      let a ← sizeOf? first
      let b ← sizeOf? second
      some (a, b)
  | _ => none

end Cmp

def cmpGrammar : Grammar := {
  flags := ['s', 'l', 'b', 'v'], valued := ['n', 'i'], refusal := 2, namesItself := true
  long := [("print-bytes", 'b'), ("ignore-initial", 'i'), ("verbose", 'l'), ("bytes", 'n'),
    ("quiet", 's'), ("silent", 's')] }

def cmp : Task Nat := do
  let given ← Task.arguments cmpGrammar
  let call ← read
  let wrong (text : String) : Task Unit := Task.refuse cmpGrammar text
  let number (text : String) : Task Nat :=
    match sizeOf? text with
    | some n => pure n
    | none => Task.refuse cmpGrammar ("invalid --ignore-initial value " ++ quoted text)
  if given.has 'l' && given.has 's' then wrong "options -l and -s are incompatible"
  if given.operands.isEmpty then wrong ("missing operand after " ++ quoted call.name)
  if given.operands.length > 4 then
    wrong ("extra operand " ++ quoted (given.operands.getD 4 ""))
  let (skipFirst, skipSecond) ← match given.value? 'i' with
    | some text => (match Cmp.skips? text with
        | some skips => pure skips
        | none => Task.refuse cmpGrammar ("invalid --ignore-initial value " ++ quoted text))
    | none => do
        let a ← (given.operands[2]?).elim (pure 0) number
        let b ← (given.operands[3]?).elim (pure 0) number
        pure (a, b)
  let limit ← match given.value? 'n' with
    | none => pure none
    | some text => (match sizeOf? text with
        | some n => pure (some n)
        | none => Task.refuse cmpGrammar ("invalid --bytes value " ++ quoted text))
  let load (p : Path) : Task Bytes := do
    match ← Task.input p with
    | .ok data => pure data
    | .error e => do
        if !given.has 's' || e = .isADirectory then Task.warn (p ++ ": " ++ e.reason)
        throw 2
  let first := given.operands.headD "-"
  let second := given.operands.getD 1 "-"
  let cut (skip : Nat) (data : Bytes) : Bytes :=
    let data := data.drop skip
    limit.elim data data.take
  let a ← load first
  let b ← load second
  let found := Cmp.differences (cut skipFirst a) (cut skipSecond b) 0 1 []
  let rows := found.filter fun f => f.first.isSome && f.second.isSome
  let tellEnd (f : Cmp.Found) : Task Unit :=
    let p := if f.first.isNone then first else second
    Task.warn ("EOF on " ++ p ++
      (if f.byte = 0 then " which is empty"
      else " after byte " ++ toString f.byte ++ (if given.has 'l' then ""
        else if f.line = 1 then ", in line 1" else ", line " ++ toString (f.line - 1))))
  if given.has 's' then pure ()
  else if given.has 'l' then do
    let width := (toString (min (cut skipFirst a).length (cut skipSecond b).length)).length
    rows.forM fun f => Task.say (f.row width (given.has 'b'))
    (found.filter fun f => f.first.isNone || f.second.isNone).forM tellEnd
  else match found with
    | [] => pure ()
    | ⟨byte, line, some x, some y⟩ :: _ =>
        Task.say (first ++ " " ++ second ++ " differ: " ++
          (if given.has 'b' then "byte " else "char ") ++ toString byte ++ ", line " ++
          toString line ++
          (if given.has 'b' then " is " ++ Cmp.octal x ++ " " ++ Cmp.sign x ++ " " ++
            Cmp.octal y ++ " " ++ Cmp.sign y
          else "") ++ "\n")
    | f :: _ => tellEnd f
  pure (Task.statusOf found.isEmpty)

namespace Diff

-- A step from one list of lines to another one.
inductive Edit where
  | keep (line : Bytes)
  | drop (line : Bytes)
  | add (line : Bytes)

-- For each end of the second list, the length of the longest common part with
-- the first one, which grows by a line.
def grow (line : Bytes) (old : Array Nat) (second : Array Bytes) : Array Nat :=
  (List.range second.size).foldl (fun new j =>
    let value := if second[j]? = some line then old.getD j 0 + 1
      else max (old.getD (j + 1) 0) (new.getD j 0)
    new.push value) #[0]

-- The lengths for all fronts of the first list.
def table (first second : List Bytes) : Array (Array Nat) :=
  let second := second.toArray
  first.foldl (fun rows line => rows.push (grow line (rows.back?.getD #[]) second))
    #[Array.replicate (second.size + 1) 0]

-- A line with the part of it that is compared.
structure Line where
  text : Bytes
  key : Bytes

-- The steps from the end of both lists back to their fronts.
def path (rows : Array (Array Nat)) : List Line → List Line → List Edit → List Edit
  | [], [], done => done
  | a :: as, [], done => path rows as [] (.drop a.text :: done)
  | [], b :: bs, done => path rows [] bs (.add b.text :: done)
  | a :: as, b :: bs, done =>
      let lengthAt (i j : Nat) : Nat := (rows.getD i #[]).getD j 0
      let i := as.length + 1
      let j := bs.length + 1
      if a.key = b.key then path rows as bs (.keep a.text :: done)
      else if lengthAt i (j - 1) ≥ lengthAt (i - 1) j then
        path rows (a :: as) bs (.add b.text :: done)
      else path rows as (b :: bs) (.drop a.text :: done)
termination_by as bs _ => as.length + bs.length

-- A change, with the numbers of the lines in front of it.
structure Hunk where
  first : Nat
  second : Nat
  dropped : List Bytes
  added : List Bytes

-- Runs of changes.
def hunks (edits : List Edit) : List Hunk :=
  let close (started : Option Hunk) (done : List Hunk) : List Hunk := match started with
    | some h => h :: done
    | none => done
  let (started, done, _, _) := edits.foldl
    (fun (state : Option Hunk × List Hunk × Nat × Nat) edit =>
      let (started, done, i, j) := state
      let h := started.getD ⟨i, j, [], []⟩
      match edit with
      | .keep _ => (none, close started done, i + 1, j + 1)
      | .drop line => (some { h with dropped := h.dropped ++ [line] }, done, i + 1, j)
      | .add line => (some { h with added := h.added ++ [line] }, done, i, j + 1))
    (none, [], 0, 0)
  (close started done).reverse

def rangeText (start count : Nat) : String :=
  if count ≤ 1 then toString (start + count)
  else toString (start + 1) ++ "," ++ toString (start + count)

def Hunk.letter (h : Hunk) : String :=
  if h.dropped.isEmpty then "a" else if h.added.isEmpty then "d" else "c"

def marked (mark : String) (lines : List Bytes) : Bytes :=
  (lines.map fun line => Text.bytesOf mark ++ line ++ [10]).flatten

def Hunk.plain (h : Hunk) : Bytes :=
  Text.bytesOf (rangeText h.first h.dropped.length ++ h.letter ++
      rangeText h.second h.added.length ++ "\n") ++
    marked "< " h.dropped ++ (if h.letter = "c" then Text.bytesOf "---\n" else []) ++
    marked "> " h.added

-- A change as a step for an editor, which works from the end.
def Hunk.script (h : Hunk) : Bytes :=
  Text.bytesOf (rangeText h.first h.dropped.length ++ h.letter ++ "\n") ++
    (if h.added.isEmpty then [] else marked "" h.added ++ Text.bytesOf ".\n")

def Hunk.counted (h : Hunk) : Bytes :=
  (if h.dropped.isEmpty then [] else Text.bytesOf ("d" ++ toString (h.first + 1) ++ " " ++
      toString h.dropped.length ++ "\n")) ++
    (if h.added.isEmpty then [] else Text.bytesOf ("a" ++
      toString (h.first + h.dropped.length) ++ " " ++ toString h.added.length ++ "\n") ++
      marked "" h.added)

-- Changes with common lines between them that are few enough.
def grouped (context : Nat) (hs : List Hunk) : List (List Hunk) :=
  (hs.foldl (fun (done : List (List Hunk)) h =>
    match done with
    | (last :: more) :: rest =>
        if h.first ≤ last.first + last.dropped.length + 2 * context then
          (h :: last :: more) :: rest
        else [h] :: done
    | _ => [h] :: done) []).reverse.map List.reverse

def spanText (start count : Nat) : String :=
  if count = 1 then toString (start + 1)
  else if count = 0 then toString start ++ ",0"
  else toString (start + 1) ++ "," ++ toString count

-- Changes with the lines around them.
def unified (context : Nat) (lines : List Bytes) (hs : List Hunk) : Bytes :=
  let slice (a b : Nat) : List Bytes := (lines.take b).drop a
  ((grouped context hs).map fun group =>
    match group.head?, group.getLast? with
    | some h, some last =>
        let front := min context h.first
        let ended := last.first + last.dropped.length
        let behind := min context (lines.length - ended)
        let start := h.first - front
        let oldCount := ended + behind - start
        let newStart := h.second - front
        let newCount := last.second + last.added.length + behind - newStart
        let (body, stop) := group.foldl (fun (state : Bytes × Nat) g =>
          (state.1 ++ marked " " (slice state.2 g.first) ++ marked "-" g.dropped ++
            marked "+" g.added, g.first + g.dropped.length)) ([], start)
        Text.bytesOf ("@@ -" ++ spanText start oldCount ++ " +" ++
          spanText newStart newCount ++ " @@\n") ++ body ++ marked " " (slice stop (ended + behind))
    | _, _ => []).flatten

-- The part of a line that is compared.
def keyOf (given : Given) (line : Bytes) : Bytes :=
  let isBlank (b : UInt8) : Bool := b = 32 || 9 ≤ b && b ≤ 13
  let line := if given.has 'i' then line.map upperByte else line
  if given.has 'w' then line.filter fun b => !isBlank b
  else
    let trimmed := (line.reverse.dropWhile isBlank).reverse
    if given.has 'b' then
      (trimmed.foldl (fun (done : Bytes) b =>
        if isBlank b then (if done.head? = some 32 then done else 32 :: done) else b :: done)
        []).reverse
    else if given.has 'Z' then trimmed else line

-- The lines of a text, the last of which tells when it has no end.
def linesIn (data : Bytes) : List Bytes :=
  let (lines, isOpen) := splitLines data
  let note := Text.bytesOf "\n\\ No newline at end of file"
  if isOpen then lines.dropLast ++ [lines.getLastD [] ++ note] else lines

def changes (given : Given) (a b : Bytes) : List Bytes × List Hunk :=
  let line (text : Bytes) : Line := ⟨text, keyOf given text⟩
  let as := (linesIn a).map line
  let bs := (linesIn b).map line
  let edits := path (table (as.map Line.key) (bs.map Line.key)) as.reverse bs.reverse []
  let isIdle (h : Hunk) : Bool := given.has 'B' && (h.dropped ++ h.added).all List.isEmpty
  (as.map Line.text, (hunks edits).filter fun h => !isIdle h)

def isBinary (data : Bytes) : Bool :=
  (data.take 4096).contains 0

-- What is told about two texts, and whether they differ.
def compared (given : Given) (heading : String) (first second : Path) (a b : Bytes) :
    Bytes × Bool :=
  let identical : Bytes × Bool := (if given.has 's' then
      Text.bytesOf ("Files " ++ first ++ " and " ++ second ++ " are identical\n") else [], false)
  if a = b then identical
  else if !given.has 'a' && (isBinary a || isBinary b) then
    (Text.bytesOf ((if given.has 'q' then "Files " else "Binary files ") ++ first ++ " and " ++
      second ++ " differ\n"), true)
  else
    let (lines, hs) := changes given a b
    if hs.isEmpty then identical
    else if given.has 'q' then
      (Text.bytesOf ("Files " ++ first ++ " and " ++ second ++ " differ\n"), true)
    else
      let labels := (given.options.filter fun o => o.1 = 'L').map Prod.snd
      let dated (p : Path) : String := p ++ "\t1970-01-01 00:00:00.000000000 +0000"
      let body := match given.last? ['u', 'U', 'e', 'n'] with
        | some 'e' => (hs.reverse.map Hunk.script).flatten
        | some 'n' => (hs.map Hunk.counted).flatten
        | _ =>
            if given.has 'u' || given.has 'U' then
              let context := ((given.value? 'U').bind String.toNat?).getD 3
              Text.bytesOf ("--- " ++ labels.getD 0 (dated first) ++ "\n+++ " ++
                labels.getD 1 (dated second) ++ "\n") ++ unified context lines hs
            else (hs.map Hunk.plain).flatten
      (Text.bytesOf heading ++ body, true)

-- What two paths are, as far as they are there.
def side (given : Given) (p : Path) : Task (Except IoError (Option Node)) := do
  if p = "-" then pure (.ok (some (.file [] false)))
  else match ← look true p with
    | .ok (_, node) => pure (.ok (some node))
    | .error e => pure (if given.has 'N' && e = .notFound then .ok none else .error e)

def dataOf (p : Path) (node : Option Node) : Task Bytes := do
  if node.isNone then pure []
  else match ← Task.input p with
    | .ok data => pure data
    | .error e => do
        Task.warn (p ++ ": " ++ e.reason)
        throw 2

-- Compares what is at two paths. A directory stands for the file in it that
-- has the other one's name.
def pair (given : Given) (options : String) : Nat → Bool → Path → Path → Task Nat
  | 0, _, _, _ => pure 0
  | fuel + 1, inside, first, second => do
      let a ← side given first
      let b ← side given second
      match a, b with
      | .ok (some .directory), .ok (some .directory) => do
          if inside && !given.has 'r' then do
            Task.say ("Common subdirectories: " ++ first ++ " and " ++ second ++ "\n")
            pure 0
          else do
            let t ← Task.act Act.files
            let cwd ← Task.act Act.cwd
            let namesIn (p : Path) : List String :=
              ((t.locate cwd p).toOption.map t.children).getD []
            let here := namesIn first
            let there := namesIn second
            let all := (here ++ there.filter fun name => !here.contains name).mergeSort
              fun a b => a ≤ b
            all.foldlM (fun status name => do
              let only (dir : Path) : Task Nat := do
                Task.say ("Only in " ++ dir ++ ": " ++ name ++ "\n")
                pure (max status 1)
              if !given.has 'N' && !there.contains name then only first
              else if !given.has 'N' && !here.contains name then only second
              else do
                let now ← pair given options fuel true (Path.join first name)
                  (Path.join second name)
                pure (max status now)) 0
      | .ok (some .directory), .ok (some _) =>
          if inside then mixed first second "directory" "regular file"
          else pair given options fuel true (Path.join first (Naming.lastPart second)) second
      | .ok (some _), .ok (some .directory) =>
          if inside then mixed first second "regular file" "directory"
          else pair given options fuel true first (Path.join second (Naming.lastPart first))
      | .ok x, .ok y => do
          let a ← dataOf first x
          let b ← if second = first then pure a else dataOf second y
          let heading := if inside && options ≠ "-" then
              "diff " ++ options ++ first ++ " " ++ second ++ "\n" else ""
          let (text, differs) := compared given heading first second a b
          Task.putOr 2 text
          pure (if differs then 1 else 0)
      | a, b => do
          let tell (p : Path) (found : Except IoError (Option Node)) : Task Unit :=
            match found with
            | .error e => Task.warn (p ++ ": " ++ e.reason)
            | .ok _ => pure ()
          tell first a
          tell second b
          pure 2
where
  mixed (first second : Path) (a b : String) : Task Nat := do
    Task.say ("File " ++ first ++ " is a " ++ a ++ " while file " ++ second ++ " is a " ++ b ++
      "\n")
    pure 1

end Diff

def diffGrammar : Grammar := {
  flags := ['q', 's', 'b', 'w', 'i', 'B', 'a', 'N', 'r', 'u', 'e', 'n', 'd', 'Z', 'E', 't', 'M']
  valued := ['U', 'L', 'x', 'I'], refusal := 2, namesItself := true, attached := ['K']
  long := [("brief", 'q'), ("report-identical-files", 's'), ("ignore-all-space", 'w'),
    ("ignore-space-change", 'b'), ("ignore-case", 'i'), ("ignore-blank-lines", 'B'), ("text", 'a'),
    ("new-file", 'N'), ("recursive", 'r'), ("unified", 'K'), ("ed", 'e'), ("rcs", 'n'),
    ("minimal", 'd'), ("normal", 'M'), ("label", 'L'), ("color", 'K'), ("exclude", 'x'),
    ("strip-trailing-cr", 'd'), ("ignore-trailing-space", 'Z'), ("ignore-tab-expansion", 'E'),
    ("expand-tabs", 't')] }

def diff : Task Nat := do
  let call ← read
  let given ← Task.arguments diffGrammar
  -- a long name for the unified form may have a number behind it
  let unified := call.args.any fun a => a.startsWith "--unified"
  let given := if unified then
      let text := (given.value? 'K').getD ""
      { given with options := given.options ++ [('U', if text = "" then "3" else text)] }
    else given
  let options := String.join ((call.args.filter fun a => a.startsWith "-" && a ≠ "-").map
    (· ++ " "))
  match given.operands with
  | [first, second] => do
      let t ← Task.act Act.files
      let areDirectories ← do pure ((← isDirectory first) && (← isDirectory second))
      Diff.pair given (if areDirectories then options else "-") (t.nodes.length + 2) false
        first second
  | [only] => Task.refuse diffGrammar ("missing operand after " ++ quoted only)
  | [] => Task.refuse diffGrammar ("missing operand after " ++ quoted call.name)
  | _ :: _ :: extra :: _ => Task.refuse diffGrammar ("extra operand " ++ quoted extra)

end Conformance.Tool
