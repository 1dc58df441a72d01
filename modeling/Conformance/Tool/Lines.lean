import Conformance.Tool.Streams

-- Programs that take some lines or bytes of a text.
namespace Conformance.Tool

open Machine (Act Access Self Store)
open Text (Bytes)

-- The lines of some data without the line feeds behind them, and whether the
-- last one has none.
def splitMarked (mark : UInt8) (data : Bytes) : List Bytes × Bool :=
  let (line, lines) := data.foldl (fun (state : Bytes × List Bytes) b =>
    if b = mark then ([], state.1.reverse :: state.2) else (b :: state.1, state.2)) ([], [])
  if line.isEmpty then (lines.reverse, false) else ((line.reverse :: lines).reverse, true)

def splitLines (data : Bytes) : List Bytes × Bool :=
  splitMarked 10 data

def joinMarked (mark : UInt8) (lines : List Bytes) : Bytes :=
  (lines.map fun line => line ++ [mark]).flatten

def joinLines (lines : List Bytes) : Bytes :=
  joinMarked 10 lines

-- What the files of a call bring. A file that brings nothing is told.
def inputs (paths : List Path) (cannot : Path → IoError → String) (status : Nat) :
    Task (List (Path × Bytes) × Nat) := do
  let paths := if paths.isEmpty then ["-"] else paths
  let (found, status) ← paths.foldlM (fun (state : List (Path × Bytes) × Nat) p => do
    match ← Task.input p with
    | .ok data => pure ((p, data) :: state.1, state.2)
    | .error e => do
        Task.warn (cannot p e)
        pure (state.1, status)) ([], 0)
  pure (found.reverse, status)

def plainly (p : Path) (e : IoError) : String :=
  p ++ ": " ++ e.reason

-- The lines of a stream, worked on as they come. Tells what is known at the
-- end and whether the last line has no mark behind it.
def linesOn (mark : UInt8) (stream : Nat) (work : σ → List Bytes → Task σ) :
    Nat → Bytes → σ → Task (Except IoError (σ × Bool))
  | 0, _, known => pure (.ok (known, false))
  | fuel + 1, part, known => do
      match ← Task.act (Act.read stream Act.blockSize) with
      | .error e => pure (.error e)
      | .ok [] => do
          let known ← if part.isEmpty then pure known else work known [part]
          pure (.ok (known, !part.isEmpty))
      | .ok data => do
          let (lines, isOpen) := splitMarked mark (part ++ data)
          let known ← work known (if isOpen then lines.dropLast else lines)
          linesOn mark stream work fuel (if isOpen then lines.getLastD [] else []) known

-- The lines of several files, worked on as they come.
def linesOf (mark : UInt8) (paths : List Path) (work : σ → List Bytes → Task σ) (known : σ) :
    Task (σ × Nat) := do
  let (known, done) ← (if paths.isEmpty then ["-"] else paths).foldlM
    (fun (state : σ × Bool) p => do
      match ← withInput p fun stream =>
          linesOn mark stream work Act.patience [] state.1 with
      | .ok (known, _) => pure (known, state.2)
      | .error e => do
          Task.warn (plainly p e)
          pure (state.1, false)) (known, true)
  pure (known, Task.statusOf done)

-- A stream's offset goes back over what was read too much.
def giveBack (stream count : Nat) : Act Unit :=
  Act.change fun st me =>
    match (me.opened? stream).bind fun n => (st.openFile? n).map (n, ·) with
    | none => ((), st, me)
    | some (number, f) =>
        match f.channel with
        | .pipe _ => ((), st, me)
        | _ => ((), st.setOpened number { f with offset := f.offset - count }, me)

namespace Head

-- The bytes up to some number of marks, how many of these are missing, and
-- what is left.
def cutLines (mark : UInt8) : Nat → Bytes → Bytes → Bytes × Nat × Bytes
  | 0, taken, rest => (taken.reverse, 0, rest)
  | count, taken, [] => (taken.reverse, count, [])
  | count + 1, taken, b :: rest =>
      if b = mark then cutLines mark count (b :: taken) rest
      else cutLines mark (count + 1) (b :: taken) rest

def lines (mark : UInt8) (stream : Nat) : Nat → Nat → Task (Except IoError Unit)
  | 0, _ => pure (.ok ())
  | _, 0 => pure (.ok ())
  | count, fuel + 1 => do
      match ← Task.act (Act.read stream 8192) with
      | .error e => pure (.error e)
      | .ok [] => pure (.ok ())
      | .ok data => do
          let (taken, count, rest) := cutLines mark count [] data
          if !rest.isEmpty then Task.act (giveBack stream rest.length)
          Task.put taken
          lines mark stream count fuel

def bytes (stream : Nat) : Nat → Nat → Task (Except IoError Unit)
  | 0, _ => pure (.ok ())
  | _, 0 => pure (.ok ())
  | count, fuel + 1 => do
      match ← Task.act (Act.read stream (min count Act.blockSize)) with
      | .error e => pure (.error e)
      | .ok [] => pure (.ok ())
      | .ok data => do
          Task.put data
          bytes stream (count - data.length) fuel

-- All but so many lines or bytes at the end.
def butLast (byBytes : Bool) (mark : UInt8) (count stream : Nat) :
    Task (Except IoError Unit) := do
  match ← Task.act (Act.readAll stream) with
  | .error e => pure (.error e)
  | .ok data => do
      if byBytes then Task.put (data.take (data.length - count))
      else
        let (all, isOpen) := splitMarked mark data
        let out := joinMarked mark (all.take (all.length - count))
        Task.put (if isOpen && count = 0 then out.dropLast else out)
      pure (.ok ())

end Head

namespace Tail

-- The end of a text, counted from its end or from its front.
def cut (byBytes fromFront : Bool) (mark : UInt8) (count : Nat) (data : Bytes) : Bytes :=
  if byBytes then data.drop (if fromFront then count - 1 else data.length - count)
  else
    let (all, isOpen) := splitMarked mark data
    let out := joinMarked mark (all.drop (if fromFront then count - 1 else all.length - count))
    if isOpen && !out.isEmpty then out.dropLast else out

end Tail

-- A count with a unit, and the sign before it.
def signedCount? (text : String) : Option (Option Char × Nat) :=
  match text.toList with
  | '-' :: rest => (sizeOf? (String.ofList rest)).map fun n => (some '-', n)
  | '+' :: rest => (sizeOf? (String.ofList rest)).map fun n => (some '+', n)
  | _ => (sizeOf? text).map fun n => (none, n)

-- Head's old form of its options: a count and letters right behind a dash.
def headArguments (args : List String) : Task (List String) := do
  let (some '-', some rest) := ((args.headD "").toList.head?, (args.headD "").toList.tail?)
    | pure args
  let digits := rest.takeWhile Char.isDigit
  if digits.isEmpty then pure args
  else
    let (unit, kind, others) ← (rest.drop digits.length).foldlM
      (fun (state : String × Char × List String) c =>
        let (unit, kind, others) := state
        match c with
        | 'c' => pure ("", 'c', others)
        | 'l' => pure ("", 'n', others)
        | 'b' | 'k' | 'm' => pure (String.ofList [if c = 'm' then 'M' else c], 'c', others)
        | 'q' | 'v' | 'z' => pure (unit, kind, others ++ [String.ofList ['-', c]])
        | c => Task.misuse ("invalid trailing option -- " ++ String.ofList [c]) 1)
      ("", 'n', [])
    pure (others ++ [String.ofList ['-', kind], String.ofList digits ++ unit] ++ args.drop 1)

-- Tail's old form, for one file at most: a sign, a count and a kind of unit.
def tailArguments (args : List String) : Task (List String) := do
  let isAlone := args.length ≤ 2 || args.length = 3 && args[1]? = some "--"
  match (args.headD "").toList with
  | sign :: rest =>
      let digits := rest.takeWhile Char.isDigit
      let (kind, ends) := match rest.drop digits.length with
        | 'c' :: more => ("-c", more)
        | 'l' :: more => ("-n", more)
        | 'b' :: more => ("-b", more)
        | more => ("-n", more)
      let isOld := (sign = '+' || sign = '-' && !digits.isEmpty) && (ends = [] || ends = ['f'])
      if sign = '-' && !digits.isEmpty && !(isOld && isAlone) then
        Task.fail ("option used in invalid context -- " ++ String.ofList (digits.take 1)) 1
      else if !(isOld && isAlone) then pure args
      else
        let count := (if sign = '+' then "+" else "") ++
          (if digits.isEmpty then "10" else String.ofList digits) ++
          (if kind = "-b" then "b" else "")
        let options := [if kind = "-b" then "-c" else kind, count] ++
          (if ends = ['f'] then ["-f"] else [])
        pure (options ++ args.drop 1)
  | [] => pure args

-- The parts of several files, each behind its name.
def endsOf (paths : List Path) (named : Bool) (work : Nat → Task (Except IoError Unit)) :
    Task Nat := do
  let paths := if paths.isEmpty then ["-"] else paths
  let (done, _) ← paths.foldlM (fun (state : Bool × Bool) p => do
    let shown := if p = "-" then "standard input" else p
    let header : Task Unit := if named then
        Task.say ((if state.2 then "" else "\n") ++ "==> " ++ shown ++ " <==\n")
      else pure ()
    let result ← if p = "-" then do
        header
        work 0
      else match ← Task.act (Act.openFile 3 p .reading) with
        | .error e => do
            Task.warn ("cannot open " ++ quoted p ++ " for reading: " ++ e.reason)
            pure (.error (.other ""))
        | .ok stream => do
            header
            let result ← work stream
            Task.act (Act.closeStream stream)
            pure result
    match result with
    | .ok _ => pure (state.1, false)
    | .error (.other _) => pure (false, state.2)
    | .error e => do
        Task.warn ("error reading " ++ quoted shown ++ ": " ++ e.reason)
        pure (false, false)) (true, true)
  pure (Task.statusOf done)

def endGrammar : Grammar := {
  flags := ['q', 'v', 'z', 'f', 'F'], valued := ['n', 'c']
  long := [("lines", 'n'), ("bytes", 'c'), ("quiet", 'q'), ("silent", 'q'), ("verbose", 'v'),
    ("zero-terminated", 'z')] }

def markOf (given : Given) : UInt8 :=
  if given.has 'z' then 0 else 10

-- The count that a call gives, and whether it counts bytes.
def countOf (given : Given) : Task (Bool × Option Char × Nat) := do
  let byBytes := given.last? ['n', 'c'] = some 'c'
  match given.value? (if byBytes then 'c' else 'n') with
  | none => pure (false, none, 10)
  | some text =>
      match signedCount? text with
      | some (sign, n) => pure (byBytes, sign, n)
      | none => Task.fail ("invalid number of " ++ (if byBytes then "bytes" else "lines") ++
          ": " ++ quoted text) 1

def isNamed (given : Given) : Bool :=
  match given.last? ['q', 'v'] with
  | some letter => letter = 'v'
  | none => given.operands.length > 1

def head : Task Nat := do
  let args ← headArguments (← read).args
  let given ← ReaderT.adapt (fun (c : Call) => { c with args := args })
    (Task.arguments endGrammar)
  let (byBytes, sign, count) ← countOf given
  endsOf given.operands (isNamed given) fun stream =>
    if sign = some '-' then Head.butLast byBytes (markOf given) count stream
    else if byBytes then Head.bytes stream count Act.patience
    else Head.lines (markOf given) stream count Act.patience

def tail : Task Nat := do
  let args ← tailArguments (← read).args
  let given ← ReaderT.adapt (fun (c : Call) => { c with args := args })
    (Task.arguments endGrammar)
  let (byBytes, sign, count) ← countOf given
  let status ← endsOf given.operands (isNamed given) fun stream => do
    match ← Task.act (Act.readAll stream) with
    | .error e => pure (.error e)
    | .ok data => do
        Task.put (Tail.cut byBytes (sign = some '+') (markOf given) count data)
        pure (.ok ())
  -- what may come later is waited for
  if given.has 'f' || given.has 'F' then Task.act (Act.rest none)
  pure status

-- What is counted in a text.
structure Census where
  lines : Nat := 0
  words : Nat := 0
  chars : Nat := 0
  bytes : Nat := 0
  longest : Nat := 0

namespace Census

def isGap (b : UInt8) : Bool :=
  b = 32 || 9 ≤ b && b ≤ 13

-- A count under way: whether it is inside a word, and how wide the line is.
structure Walk where
  census : Census := {}
  inWord : Bool := false
  column : Nat := 0

def step (w : Walk) (b : UInt8) : Walk :=
  let c := w.census
  let gap := isGap b
  let ends := b = 10 || b = 12 || b = 13
  let column := if ends then 0 else if b = 9 then (w.column / 8 + 1) * 8
    else if b < 32 || b ≥ 127 then w.column else w.column + 1
  ⟨{ lines := if b = 10 then c.lines + 1 else c.lines
     words := if !gap && !w.inWord then c.words + 1 else c.words
     chars := c.chars + 1
     bytes := c.bytes + 1
     longest := if ends then max c.longest w.column else c.longest }, !gap, column⟩

-- All that a stream brings, counted as it comes.
def ofStream (stream : Nat) : Nat → Walk → Task (Except IoError Census)
  | 0, w => pure (.ok w.census)
  | fuel + 1, w => do
      match ← Task.act (Act.read stream Act.blockSize) with
      | .error e => pure (.error e)
      | .ok [] => pure (.ok { w.census with longest := max w.census.longest w.column })
      | .ok data => ofStream stream fuel (data.foldl step w)

def add (a b : Census) : Census :=
  ⟨a.lines + b.lines, a.words + b.words, a.chars + b.chars, a.bytes + b.bytes,
    max a.longest b.longest⟩

-- The numbers that are asked for, each at the end of a field.
def text (given : Given) (width : Nat) (c : Census) : String :=
  let chosen : List (Char × Nat) := [('l', c.lines), ('w', c.words), ('m', c.chars),
    ('c', c.bytes), ('L', c.longest)]
  let plain := !chosen.any fun entry => given.has entry.1
  let numbers := chosen.filter fun entry =>
    if plain then ['l', 'w', 'c'].contains entry.1 else given.has entry.1
  String.intercalate " " (numbers.map fun entry =>
    let digits := toString entry.2
    String.ofList (List.replicate (width - digits.length) ' ') ++ digits)

end Census

-- The width for the counts: that of all bytes of all files together.
def countWidth (given : Given) (paths : List Path) : Task Nat := do
  let kinds := given.options.map Prod.fst |>.filter ['l', 'w', 'm', 'c', 'L'].contains
  if paths.length = 1 && kinds.eraseDups.length = 1 then pure 1
  else do
    let sizes ← paths.mapM fun p => do
      if p = "-" then
        Task.act (Act.look fun st me =>
          match (me.opened? 0).bind st.openFile? with
          | some { channel := .file place, .. } => some ((st.sizeAt? place).getD 0)
          | some { channel := .nameless data, .. } => some data.length
          | _ => none)
      else
        match ← look true p with
        | .ok (_, .file data _) => pure (some data.length)
        | .ok _ => pure none
        | .error _ => pure (some 0)
    let total := (sizes.map fun size => size.getD 0).foldl (· + ·) 0
    pure (max (toString total).length (if sizes.contains none then 7 else 1))

def wc : Task Nat := do
  let given ← Task.arguments {
    flags := ['l', 'w', 'm', 'c', 'L', 'D'], valued := ['T', 'F']
    long := [("lines", 'l'), ("words", 'w'), ("chars", 'm'), ("bytes", 'c'),
      ("max-line-length", 'L'), ("total", 'T'), ("files0-from", 'F'), ("debug", 'D')] }
  let total ← match given.value? 'T' with
    | some word => Task.choice "--total" word [["auto"], ["always"], ["only"], ["never"]] 1
    | none => pure "auto"
  let listed ← match given.value? 'F', given.operands with
    | none, _ => pure none
    | some _, extra :: _ => do
        Task.warn ("extra operand " ++ quoted extra)
        let call ← read
        discard (Task.act (Act.write 2 (Text.bytesOf
          ("file operands cannot be combined with --files0-from\nTry '" ++ call.name ++
            " --help' for more information.\n"))))
        throw 1
    | some list, [] =>
        match ← Task.input list with
        | .ok data => pure (some ((splitMarked 0 data).1.map Text.lossy))
        | .error e => Task.fail ("cannot open " ++ quoted list ++ " for reading: " ++ e.reason) 1
  let isBare := listed.isNone && given.operands.isEmpty
  let paths := if isBare then ["-"] else listed.getD given.operands
  let width ← if total = "only" || given.value? 'F' = some "-" then pure 1
    else countWidth given paths
  let named (p : Path) : String := if isBare then "" else " " ++ p
  let showCensus (c : Census) (name : String) : Task Unit :=
    if total = "only" then pure () else Task.say (c.text given width ++ name ++ "\n")
  let (done, sum) ← paths.foldlM (fun (state : Bool × Census) p => do
    match ← withInput p fun stream => Census.ofStream stream Act.patience {} with
    | .ok c => do
        showCensus c (named p)
        pure (state.1, state.2.add c)
    | .error e => do
        Task.warn (p ++ ": " ++ e.reason)
        if e = .isADirectory then showCensus {} (named p)
        pure (false, state.2)) (true, {})
  if total = "only" then Task.say (sum.text given width ++ "\n")
  else if total = "always" || total = "auto" && paths.length > 1 then
    Task.say (sum.text given width ++ " total\n")
  pure (Task.statusOf done)

def splitAt (separator : UInt8) (line : Bytes) : List Bytes :=
  let (piece, pieces) := line.foldl (fun (state : Bytes × List Bytes) b =>
    if b = separator then ([], state.1.reverse :: state.2) else (b :: state.1, state.2)) ([], [])
  (piece.reverse :: pieces).reverse

-- The pieces of a text from its end, each with the separator behind it or in
-- front of it. The text comes backwards, and so does the separator.
def piecesFromEnd (separator : Bytes) (before : Bool) : Nat → Bytes → Bytes → List Bytes
  | 0, _, _ => []
  | _, piece, [] => [piece]
  | fuel + 1, piece, b :: rest =>
      if separator.isPrefixOf (b :: rest) then
        let behind := (b :: rest).drop separator.length
        let mark := separator.reverse
        if before then (mark ++ piece) :: piecesFromEnd separator before fuel [] behind
        else piece :: piecesFromEnd separator before fuel mark behind
      else piecesFromEnd separator before fuel (b :: piece) rest

def tac : Task Nat := do
  let given ← Task.arguments {
    flags := ['b', 'r'], valued := ['s']
    long := [("before", 'b'), ("regex", 'r'), ("separator", 's')] }
  let cannot (p : Path) (e : IoError) : String :=
    if e = .isADirectory then p ++ ": read error: Invalid argument"
    else "failed to open " ++ quoted p ++ " for reading: " ++ e.reason
  let separator := match given.value? 's' with
    | some text => if text = "" then [0] else Text.bytesOf text
    | none => [10]
  let (found, status) ← inputs given.operands cannot 1
  found.forM fun entry =>
    Task.put (piecesFromEnd separator.reverse (given.has 'b') (entry.2.length + 1) []
      entry.2.reverse).flatten
  pure status

def rev : Task Nat := do
  let given ← Task.arguments {}
  let cannot (p : Path) (e : IoError) : String := "cannot open " ++ p ++ ": " ++ e.reason
  let (found, status) ← inputs given.operands cannot 1
  found.forM fun entry =>
    let (lines, isOpen) := splitLines entry.2
    let out := joinLines (lines.map List.reverse)
    Task.put (if isOpen then out.dropLast else out)
  pure status

end Conformance.Tool
