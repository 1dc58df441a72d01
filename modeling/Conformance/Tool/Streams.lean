import Conformance.Tool.Words

-- Programs that pass data on.
namespace Conformance.Tool

open Machine (Act Access Self Store)
open Text (Bytes)

-- What stands at a path, and where. A link at its end is followed or not.
def look (follow : Bool) (p : Path) : Task (Except IoError (Place × Node)) := do
  let t ← Task.act Act.files
  let cwd ← Task.act Act.cwd
  pure do
    let place ← if follow then t.locate cwd p else t.entry cwd p
    match t.node? place with
    | none => .error .notFound
    | some node =>
        if Path.endsWithSlash p && node ≠ .directory then .error .notADirectory
        else .ok (place, node)

def isDirectory (p : Path) : Task Bool := do
  let t ← Task.act Act.files
  pure (t.leadsToDirectory (← Task.act Act.cwd) p)

def changeStore (f : Store → Store) : Task Unit :=
  Task.act (Act.change fun st me => ((), f st, me))

def changeFiles (f : Tree → Place → Except IoError Tree) : Task (Except IoError Unit) :=
  Task.act (Act.changeFiles f)

-- Gives an open stream's data on as it comes.
def passOn (stream : Nat) (out : Bytes → Task Unit) : Nat → Task (Except IoError Unit)
  | 0 => pure (.ok ())
  | fuel + 1 => do
      match ← Task.act (Act.read stream Act.blockSize) with
      | .error e => pure (.error e)
      | .ok [] => pure (.ok ())
      | .ok data => do
          out data
          passOn stream out fuel

-- The work on the stream that a path stands for, a dash being the input.
def withInput (p : Path) (work : Nat → Task (Except IoError α)) : Task (Except IoError α) := do
  if p = "-" then work 0
  else
    match ← Task.act (Act.openFile 3 p .reading) with
    | .error e => pure (.error e)
    | .ok stream => do
        let result ← work stream
        Task.act (Act.closeStream stream)
        pure result

-- How far a stream and the output are, if they lead to one file.
def outputPlaces (stream : Nat) : Task (Option (Nat × Nat)) :=
  Task.act (Act.outline fun st me =>
    let places := do
      let source ← (me.opened? stream).bind st.openFile?
      let target ← (me.opened? 1).bind st.openFile?
      match source.channel, target.channel with
      | .file a, .file b =>
          if a = b then
            some (source.offset, if target.appends then (st.sizeAt? b).getD 0 else target.offset)
          else none
      | _, _ => none
    (places, st, me))

-- Whether a stream would bring what was just put out.
def isBehindOutput (stream : Nat) : Task Bool := do
  pure ((← outputPlaces stream).any fun places => places.1 < places.2)

namespace Cat

-- A byte in a form that can be seen.
def visible (b : UInt8) : Bytes :=
  let low (n : Nat) : Bytes :=
    if n < 32 then [94, (n + 64).toUInt8] else if n = 127 then [94, 63] else [n.toUInt8]
  if b = 9 ∨ b = 10 then [b]
  else if b < 128 then low b.toNat
  else [77, 45] ++ low (b.toNat - 128)

-- How far a numbered output has come.
structure Count where
  line : Nat := 1
  atStart : Bool := true
  blanks : Nat := 0

def numberText (n : Nat) : Bytes :=
  let digits := toString n
  Text.bytesOf (String.ofList (List.replicate (6 - digits.length) ' ') ++ digits ++ "\t")

-- The output with marks, latest byte first.
def step (options : Char → Bool) (state : Count × Bytes) (b : UInt8) : Count × Bytes :=
  let (k, out) := state
  let isBlank := k.atStart && b = 10
  if isBlank && options 's' && k.blanks > 0 then (k, out)
  else
    let numbered := k.atStart && (options 'b' && !isBlank || options 'n' && !options 'b')
    let out := if numbered then (numberText k.line).reverse ++ out else out
    let line := if numbered then k.line + 1 else k.line
    let shown := if b = 9 && options 'T' then [94, 73]
      else if b = 10 && options 'E' then [36, 10]
      else if options 'v' then visible b else [b]
    (⟨line, b = 10, if isBlank then k.blanks + 1 else 0⟩, shown.reverse ++ out)

end Cat

def cat : Task Nat := do
  let given ← Task.arguments {
    flags := ['n', 'b', 's', 'A', 'E', 'T', 'v', 'e', 't', 'u']
    long := [("number", 'n'), ("number-nonblank", 'b'), ("squeeze-blank", 's'), ("show-all", 'A'),
      ("show-ends", 'E'), ("show-tabs", 'T'), ("show-nonprinting", 'v')] }
  let options (c : Char) : Bool := given.has c ||
    (match c with
    | 'E' => given.has 'A' || given.has 'e'
    | 'T' => given.has 'A' || given.has 't'
    | 'v' => given.has 'A' || given.has 'e' || given.has 't'
    | _ => false)
  let paths := if given.operands.isEmpty then ["-"] else given.operands
  let isPlain := given.options.all fun o => o.1 = 'u'
  let told (p : Path) (result : Except IoError Unit) : Task Bool :=
    match result with
    | .ok _ => pure true
    | .error e => do
        Task.warn (p ++ ": " ++ e.reason)
        pure false
  if isPlain then
    Task.statusOf <$> Task.all paths fun p => do
      told p (← withInput p fun stream => do
        if ← isBehindOutput stream then pure (.error (.other "input file is output file"))
        else passOn stream Task.put Act.patience)
  else do
    let (done, _) ← paths.foldlM (fun (state : Bool × Cat.Count) p => do
      let found ← withInput p fun stream => do
        if ← isBehindOutput stream then pure (.error (.other "input file is output file"))
        else Task.act (Act.readAll stream)
      match found with
      | .error e => do
          discard (told p (.error e))
          pure (false, state.2)
      | .ok data => do
          let (count, out) := data.foldl (Cat.step options) (state.2, [])
          Task.put out.reverse
          pure (state.1, count)) (true, {})
    pure (Task.statusOf done)

def tee : Task Nat := do
  let given ← Task.arguments {
    flags := ['a', 'i', 'p'], long := [("append", 'a'), ("ignore-interrupts", 'i')] }
  let how : Access := if given.has 'a' then .appending else .writing
  let (done, streams) ← given.operands.foldlM (fun (state : Bool × List Nat) p => do
    match ← Task.act (Act.openFile 3 p how) with
    | .ok stream => pure (state.1, stream :: state.2)
    | .error e => do
        Task.warn (p ++ ": " ++ e.reason)
        pure (false, state.2)) (true, [])
  let out (data : Bytes) : Task Unit := do
    Task.put data
    streams.forM fun stream => discard (Task.act (Act.write stream data))
  discard (passOn 0 out Act.patience)
  pure (Task.statusOf done)

-- A number of bytes with a letter for a power of 1024.
def sizeOf? (text : String) : Option Nat :=
  let cs := text.toList
  let digits := cs.takeWhile Char.isDigit
  let units : List (List Char × Nat) := [([], 1), (['c'], 1), (['b'], 512), (['k'], 1024),
    (['K'], 1024), (['k', 'B'], 1000), (['K', 'B'], 1000), (['M'], 1048576),
    (['M', 'B'], 1000000), (['G'], 1073741824)]
  match (String.ofList digits).toNat?, units.find? fun u => u.1 = cs.drop digits.length with
  | some n, some u => some (n * u.2)
  | _, _ => none

namespace Dd

-- What a copy of blocks is made of.
structure Plan where
  input : Option Path := none
  output : Option Path := none
  inputSize : Nat := 512
  outputSize : Nat := 512
  count : Option Nat := none
  skip : Nat := 0
  seek : Nat := 0
  conversions : List String := []
  status : String := ""

-- How many whole blocks and how many parts of blocks were read, and how many
-- bytes went out.
structure Tally where
  whole : Nat := 0
  part : Nat := 0
  bytes : Nat := 0

def swapped : Bytes → Bytes
  | a :: b :: rest => b :: a :: swapped rest
  | rest => rest

def converted (p : Plan) (data : Bytes) : Bytes :=
  let has (name : String) : Bool := p.conversions.contains name
  let data := if has "swab" then swapped data else data
  let data := if has "sync" then data ++ List.replicate (p.inputSize - data.length) 0 else data
  if has "ucase" then data.map fun b => if 97 ≤ b && b ≤ 122 then b - 32 else b
  else if has "lcase" then data.map fun b => if 65 ≤ b && b ≤ 90 then b + 32 else b
  else data

-- Blocks read one by one, each given on at once.
def copy (p : Plan) (source : Nat) (out : Bytes → Task Bool) :
    Option Nat → Nat → Tally → Task (Tally × Bool)
  | some 0, _, t => pure (t, true)
  | _, 0, t => pure (t, true)
  | count, fuel + 1, t => do
      match ← Task.act (Act.read source p.inputSize) with
      | .ok [] => pure (t, true)
      | .error e => do
          Task.warn ("error reading " ++ quoted (p.input.getD "standard input") ++ ": " ++ e.reason)
          pure (t, false)
      | .ok data => do
          let data' := converted p data
          let isWhole := data.length = p.inputSize
          let t := { t with
            whole := if isWhole then t.whole + 1 else t.whole
            part := if isWhole then t.part else t.part + 1 }
          if ← out data' then
            copy p source out (count.map (· - 1)) fuel { t with bytes := t.bytes + data'.length }
          else pure (t, false)

def conversionNames : List String :=
  ["notrunc", "ucase", "lcase", "swab", "sync", "noerror", "fsync", "fdatasync", "sparse",
    "nocreat", "excl", "ascii", "ebcdic", "block", "unblock"]

def number (text : String) : Task Nat :=
  match sizeOf? text with
  | some n => pure n
  | none => Task.fail ("invalid number: " ++ quoted text) 1

-- A plan changed by one operand.
def withOperand (p : Plan) (arg : String) : Task Plan := do
  let name := String.ofList (arg.toList.takeWhile (· ≠ '='))
  let value := String.ofList (arg.toList.drop (name.length + 1))
  let size (n : Nat) : Task Nat :=
    if n = 0 then Task.fail ("invalid number: " ++ quoted value) 1 else pure n
  if !arg.toList.contains '=' then Task.misuse ("unrecognized operand " ++ quoted arg) 1
  else match name with
    | "if" => pure { p with input := some value }
    | "of" => pure { p with output := some value }
    | "bs" => do
        let n ← size (← number value)
        pure { p with inputSize := n, outputSize := n }
    | "ibs" => do pure { p with inputSize := ← size (← number value) }
    | "obs" => do pure { p with outputSize := ← size (← number value) }
    | "cbs" => do
        discard (number value)
        pure p
    | "count" => do pure { p with count := some (← number value) }
    | "skip" | "iseek" => do pure { p with skip := ← number value }
    | "seek" | "oseek" => do pure { p with seek := ← number value }
    | "iflag" | "oflag" => pure p
    | "conv" => do
        let names := value.splitOn ","
        if let some bad := names.find? fun n => !conversionNames.contains n then
          Task.misuse ("invalid conversion: " ++ quoted bad) 1
        pure { p with conversions := p.conversions ++ names }
    | "status" =>
        if ["none", "noxfer", "progress"].contains value then pure { p with status := value }
        else Task.misuse ("invalid status level: " ++ quoted value) 1
    | _ => Task.misuse ("unrecognized operand " ++ quoted arg) 1

def cannotOpen (p : Path) (e : IoError) : Task α :=
  Task.fail ("failed to open " ++ quoted p ++ ": " ++ e.reason) 1

-- What of the old data of a file is kept around data that is put into it.
def placed (p : Plan) (old data : Bytes) : Bytes :=
  let start := p.seek * p.outputSize
  let rest := if p.conversions.contains "notrunc" then old.drop (start + data.length) else []
  old.take start ++ List.replicate (start - old.length) 0 ++ data ++ rest

def told (p : Plan) (t : Tally) : Task Unit := do
  if p.status ≠ "none" then
    let isSame := p.inputSize = p.outputSize
    let outWhole := if isSame then t.whole else t.bytes / p.outputSize
    let outPart := if isSame then t.part else if t.bytes % p.outputSize = 0 then 0 else 1
    let records (a b : Nat) (way : String) : String :=
      toString a ++ "+" ++ toString b ++ " records " ++ way ++ "\n"
    discard (Task.act (Act.write 2 (Text.bytesOf (records t.whole t.part "in" ++
      records outWhole outPart "out" ++
      if p.status = "noxfer" then ""
      else toString t.bytes ++ " bytes copied, 0 s, Infinity B/s\n"))))

end Dd

-- Copies blocks.
def dd : Task Nat := do
  let args := (← read).args
  let p ← (args.filter (· ≠ "--")).foldlM Dd.withOperand ({} : Dd.Plan)
  let source ← match p.input with
    | none => pure 0
    | some path =>
        match ← Task.act (Act.openFile 3 path .reading) with
        | .ok stream => pure stream
        | .error e => Dd.cannotOpen path e
  let keeps := p.seek > 0 || p.conversions.contains "notrunc"
  let old ← match p.output with
    | some path =>
        if keeps then
          match ← Task.input path with
          | .ok data => pure (some (path, data))
          | .error .notFound => pure (some (path, []))
          | .error e => Dd.cannotOpen path e
        else pure none
    | none => pure none
  let target ← match p.output, old with
    | some path, none =>
        match ← Task.act (Act.openFile 3 path .writing) with
        | .ok stream => pure stream
        | .error e => Dd.cannotOpen path e
    | _, _ => pure 1
  let skipped := p.skip * p.inputSize
  if skipped > 0 then discard (Task.act (Act.read source skipped))
  match old with
  | some (path, data) => do
      let all ← match ← Task.act (Act.readAll source) with
        | .ok all => pure all
        | .error e => Task.fail ("error reading: " ++ e.reason) 1
      let used := p.count.elim all fun n => all.take (n * p.inputSize)
      let t : Dd.Tally := {
        whole := used.length / p.inputSize, bytes := used.length
        part := if used.length % p.inputSize = 0 then 0 else 1 }
      let new := Dd.placed p data (Dd.converted p used)
      match ← changeFiles fun t cwd => t.write cwd path new with
      | .ok _ => do
          Dd.told p t
          pure 0
      | .error e => Dd.cannotOpen path e
  | none => do
      let out (data : Bytes) : Task Bool := do
        match ← Task.act (Act.write target data) with
        | .ok _ => pure true
        | .error e => do
            Task.warn ("error writing " ++ quoted (p.output.getD "standard output") ++ ": " ++
              e.reason)
            pure false
      let (t, done) ← Dd.copy p source out p.count Act.patience {}
      Dd.told p t
      pure (Task.statusOf done)

namespace Size

-- A size, or how it comes from the old one.
inductive Change where
  | exact (n : Nat)
  | more (n : Nat)
  | less (n : Nat)
  | atMost (n : Nat)
  | atLeast (n : Nat)
  | roundedDown (n : Nat)
  | roundedUp (n : Nat)

def Change.of? (text : String) : Option Change :=
  let cs := text.toList.dropWhile fun c => c = ' '
  let size (rest : List Char) : Option Nat := sizeOf? (String.ofList rest)
  match cs with
  | '+' :: rest => (size rest).map .more
  | '-' :: rest => (size rest).map .less
  | '<' :: rest => (size rest).map .atMost
  | '>' :: rest => (size rest).map .atLeast
  | '/' :: rest => (size rest).map .roundedDown
  | '%' :: rest => (size rest).map .roundedUp
  | cs => (size cs).map .exact

def Change.isIdle : Change → Bool
  | roundedDown 0 => true
  | roundedUp 0 => true
  | _ => false

def Change.isExact : Change → Bool
  | exact _ => true
  | _ => false

def Change.apply (old : Nat) : Change → Nat
  | exact n => n
  | more n => old + n
  | less n => old - n
  | atMost n => min old n
  | atLeast n => max old n
  | roundedDown n => old / n * n
  | roundedUp n => (old + n - 1) / n * n

end Size

def truncate : Task Nat := do
  let given ← Task.arguments {
    flags := ['c', 'o'], valued := ['s', 'r']
    long := [("size", 's'), ("no-create", 'c'), ("io-blocks", 'o'), ("reference", 'r')] }
  let change? ← match given.value? 's' with
    | none => pure none
    | some text =>
        match Size.Change.of? text with
        | some change =>
            if change.isIdle then Task.fail "division by zero" 1 else pure (some change)
        | none => Task.fail ("Invalid number: " ++ quoted text) 1
  let reference ← match given.value? 'r' with
    | none => pure none
    | some p =>
        match ← Task.input p with
        | .ok data => pure (some data.length)
        | .error e => Task.fail ("cannot stat " ++ quoted p ++ ": " ++ e.reason) 1
  if change?.isNone && reference.isNone then
    Task.misuse "you must specify either '--size' or '--reference'" 1
  if reference.isSome && change?.any Size.Change.isExact then
    Task.misuse "you must specify a relative '--size' with '--reference'" 1
  if given.operands.isEmpty then Task.misuse "missing file operand" 1
  Task.statusOf <$> Task.all given.operands fun p => do
    let old ← Task.input p
    if given.has 'c' && !old.isOk then pure true
    else
      let data := old.toOption.getD []
      let base := reference.getD data.length
      let size := change?.elim base (Size.Change.apply base)
      let data := data.take size ++ List.replicate (size - data.length) 0
      match ← changeFiles fun t cwd => t.write cwd p data with
      | .ok _ => pure true
      | .error e => do
          Task.warn ("cannot open " ++ quoted p ++ " for writing: " ++ e.reason)
          pure false

end Conformance.Tool
