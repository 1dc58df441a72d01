import Conformance.Shell.Format
import Conformance.Tool.Task

-- Programs that work on their arguments and on nothing else.
namespace Conformance.Tool

open Machine (Act)
open Text (Bytes)

namespace Echo

-- Whether an argument is made of options.
def isOptions (arg : String) : Bool :=
  match arg.toList with
  | '-' :: c :: more => (c :: more).all fun c => c = 'n' || c = 'e' || c = 'E'
  | _ => false

-- The options at the front, latest first, and the words behind them.
def split : List Char → List String → List Char × List String
  | seen, [] => (seen, [])
  | seen, arg :: rest =>
      if isOptions arg then split ((arg.toList.drop 1).reverse ++ seen) rest
      else (seen, arg :: rest)

end Echo

def echo : Task Nat := do
  let (options, words) := Echo.split [] (← read).args
  let text := String.intercalate " " words
  let (bytes, ends) := if options.find? (fun c => c = 'e' ∨ c = 'E') = some 'e'
    then Shell.escapesCarriedOut .program text else (Text.bytesOf text, false)
  Task.put (bytes ++ if ends || options.contains 'n' then [] else [10])
  pure 0

def formatFault : Shell.Format.Fault → String
  | .notNumber arg => quoted arg ++ ": expected a numeric value"
  | .notWhollyNumber arg => quoted arg ++ ": value not completely converted"
  | .outOfRange arg => quoted arg ++ ": Numerical result out of range"
  | .badDirective text => text ++ ": invalid conversion specification"
  | .noLetter => "%: invalid conversion specification"

def printf : Task Nat := do
  let args := (← read).args
  match if args.head? = some "--" then args.drop 1 else args with
  | [] => Task.misuse "missing operand" 1
  | form :: args =>
      let (bytes, faults) := Shell.formatted .program form args
      faults.forM fun f => Task.warn (formatFault f)
      let once := Shell.Format.once .program (form.length + 1) form.toList { args := args }
      if !args.isEmpty && once.args.length = args.length && !once.ends then
        Task.warn ("warning: ignoring excess arguments, starting with " ++
          quoted (args.headD ""))
      Task.put bytes
      pure (if faults.isEmpty then 0 else 1)

-- A time in seconds, minutes, hours or days, in microseconds.
def duration? (arg : String) : Option (Option Nat) :=
  let units : List (List Char × Nat) := [([], 1), (['s'], 1), (['m'], 60), (['h'], 3600),
    (['d'], 86400)]
  if arg = "infinity" ∨ arg = "inf" then some none
  else match Decimal.numeral? arg.toList with
    | none => none
    | some (r, _, rest) =>
        (units.find? fun u => u.1 = rest).map fun u =>
          some (r.numerator * u.2 * 1000000 / r.denominator)

def invalidInterval (arg : String) : String :=
  "invalid time interval " ++ quoted arg

def sleep : Task Nat := do
  let given ← Task.arguments {}
  match given.operands with
  | [] => Task.misuse "missing operand" 1
  | args => do
      let wrong := args.filter fun a => (duration? a).isNone
      wrong.forM fun a => Task.warn (invalidInterval a)
      if !wrong.isEmpty then Task.misuse (invalidInterval (wrong.getLastD "")) 1
      args.forM fun a => Task.act (Act.rest ((duration? a).getD none))
      pure 0

-- How many bytes of equal lines are written at once.
def floodSize : Nat := 65536

def flood (data : Bytes) : Nat → Task Nat
  | 0 => pure 0
  | fuel + 1 => do
      Task.put data
      flood data fuel

-- A line again and again.
def yes : Task Nat := do
  let args := (← Task.arguments { mixed := false }).operands
  let line := Text.bytesOf (String.intercalate " " (if args.isEmpty then ["y"] else args) ++ "\n")
  flood (List.replicate (max 1 (floodSize / line.length)) line).flatten Act.patience

-- A number with some places, without its point.
structure Decimals where
  units : Int
  places : Nat

namespace Decimals

def ofText? (s : String) : Option Decimals :=
  let cs := s.toList.dropWhile Char.isWhitespace
  let (negative, body) := match cs with
    | '-' :: rest => (true, rest)
    | '+' :: rest => (false, rest)
    | cs => (false, cs)
  match Decimal.numeral? body with
  | some (r, places, []) =>
      let units : Int := r.numerator * Nat.pow 10 places / r.denominator
      some ⟨if negative then -units else units, places⟩
  | _ => none

-- The units at a larger number of places.
def at? (d : Decimals) (places : Nat) : Int :=
  d.units * Nat.pow 10 (places - d.places)

def text (places : Nat) (units : Int) : String :=
  (if units < 0 then "-" else "") ++
    Decimal.Ratio.fixedText places ⟨units.natAbs, Nat.pow 10 places⟩

end Decimals

-- The numbers from a first to a last one in equal steps.
def steps (first step last : Int) : Nat :=
  if step > 0 then (if last < first then 0 else ((last - first) / step).toNat + 1)
  else (if first < last then 0 else ((first - last) / -step).toNat + 1)

namespace Seq

-- A number with zeros behind its sign up to a width.
def widened (width : Nat) (s : String) : String :=
  let count := width - s.length
  match s.toList with
  | '-' :: digits => String.ofList ('-' :: List.replicate count '0' ++ digits)
  | digits => String.ofList (List.replicate count '0' ++ digits)

-- Writes some numbers, the first of which is given, a block at a time.
def write (shown : Int → String) (step : Int) (separator : String) :
    Nat → Nat → Int → Task Unit
  | 0, _, _ => pure ()
  | fuel + 1, count, first => do
      if count > 0 then
        let now := min count 512
        let texts := (List.range now).map fun (i : Nat) => shown (first + step * (i : Nat))
        let isLast := count = now
        Task.say (String.intercalate separator texts ++ if isLast then "\n" else separator)
        write shown step separator fuel (count - now) (first + step * now)

-- What is wrong with a format, which must hold one number.
def formatFault? (form : String) : Option String :=
  let rec skipText : Nat → List Char → List Char
    | 0, cs => cs
    | fuel + 1, '%' :: '%' :: rest => skipText fuel rest
    | _, '%' :: rest => '%' :: rest
    | fuel + 1, _ :: rest => skipText fuel rest
    | _, [] => []
  let wrong (what : String) : Option String := some ("format " ++ quoted form ++ " " ++ what)
  match skipText (form.length + 1) form.toList with
  | [] => wrong "has no % directive"
  | _ :: rest =>
      let rest := rest.dropWhile fun c => "-+#0 '".toList.contains c
      let rest := rest.dropWhile Char.isDigit
      let rest := match rest with
        | '.' :: rest => rest.dropWhile Char.isDigit
        | rest => rest
      match if rest.head? = some 'L' then rest.drop 1 else rest with
      | [] => wrong "ends in %"
      | c :: rest =>
          if !"efgaEFGA".toList.contains c then
            wrong ("has unknown %" ++ String.ofList [c] ++ " directive")
          else if (skipText (form.length + 1) rest).isEmpty then none
          else wrong "has too many % directives"

-- A number, which may be in base 16.
def number? (text : String) : Option Decimals :=
  match text.toList with
  | '0' :: x :: digits =>
      let value := (Shell.Arithmetic.digits 16 digits)
      if (x = 'x' ∨ x = 'X') ∧ !digits.isEmpty ∧ value.2.isEmpty then some ⟨value.1, 0⟩
      else Decimals.ofText? text
  | _ => Decimals.ofText? text

end Seq

def seq : Task Nat := do
  let call ← read
  -- a negative number is no option
  let isNumber (a : String) : Bool := (Seq.number? a).isSome
  let front := call.args.takeWhile fun a => a.startsWith "-" && !isNumber a
  let valued := ["-s", "-f", "--separator", "--format"].contains (front.getLastD "")
  let count := front.length + if valued then 1 else 0
  let given ← ReaderT.adapt (fun (c : Call) => { c with args := c.args.take count })
    (Task.arguments {
      flags := ['w'], valued := ['s', 'f']
      long := [("equal-width", 'w'), ("separator", 's'), ("format", 'f')], mixed := false })
  let args := given.operands ++ call.args.drop count
  if args.isEmpty then Task.misuse "missing operand" 1
  if args.length > 3 then Task.misuse ("extra operand " ++ quoted (args.getD 3 "")) 1
  if let some fault := (given.value? 'f').bind Seq.formatFault? then Task.fail fault 1
  if given.has 'f' && given.has 'w' then
    Task.misuse "format string may not be specified when printing equal width strings" 1
  if let some bad := args.find? fun a => !isNumber a then
    Task.misuse ("invalid floating point argument: " ++ quoted bad) 1
  let one : Decimals := ⟨1, 0⟩
  let (first, step, last) := match args.filterMap Seq.number? with
    | [last] => (one, one, last)
    | [first, last] => (first, one, last)
    | numbers => (numbers.getD 0 one, numbers.getD 1 one, numbers.getD 2 one)
  if step.units = 0 then
    Task.misuse ("invalid Zero increment value: " ++ quoted (args.getD 1 "")) 1
  else do
    let places := max first.places step.places
    let fine := max places last.places
    let shift : Int := Nat.pow 10 (fine - places)
    let count := steps (first.at? fine) (step.at? fine) (last.at? fine)
    let plain (units : Int) : String := Decimals.text places (units / shift)
    let final := first.at? fine + step.at? fine * (count - 1)
    let width := max (plain (first.at? fine)).length (plain final).length
    let shown (units : Int) : String := match given.value? 'f' with
      | some form => Text.lossy (Shell.formatted .program form [plain units]).1
      | none => if given.has 'w' then Seq.widened width (plain units) else plain units
    Seq.write shown (step.at? fine) ((given.value? 's').getD "\n") (count + 1) count
      (first.at? fine)
    pure 0

namespace Naming

-- The last part of a path as its text shows it.
def lastPart (path : String) : String :=
  let cs := path.toList.reverse.dropWhile (· = '/')
  let name := String.ofList (cs.takeWhile (· ≠ '/')).reverse
  if name = "" ∧ path ≠ "" then "/" else name

-- The part before the last one.
def front (path : String) : String :=
  let cs := path.toList.reverse.dropWhile (· = '/')
  let before := (cs.dropWhile (· ≠ '/')).dropWhile (· = '/')
  if before.isEmpty then (if path.startsWith "/" then "/" else ".")
  else String.ofList before.reverse

def withoutEnding (ending name : String) : String :=
  match Text.dropEnding? name ending with
  | some "" => name
  | some stem => stem
  | none => name

end Naming

def basename : Task Nat := do
  let given ← Task.arguments {
    flags := ['a', 'z'], valued := ['s'], mixed := false
    long := [("multiple", 'a'), ("suffix", 's'), ("zero", 'z')] }
  let many := given.has 'a' || given.has 's'
  let ending := if given.has 'z' then "\x00" else "\n"
  let tell (suffix path : String) : Task Unit :=
    Task.say (Naming.withoutEnding suffix (Naming.lastPart path) ++ ending)
  match given.operands with
  | [] => Task.misuse "missing operand" 1
  | paths =>
      if many then do
        paths.forM (tell ((given.value? 's').getD ""))
        pure 0
      else match paths with
        | _ :: _ :: extra :: _ => Task.misuse ("extra operand " ++ quoted extra) 1
        | path :: rest => do
            tell (rest.headD "") path
            pure 0
        | [] => pure 1

def dirname : Task Nat := do
  let given ← Task.arguments { flags := ['z'], long := [("zero", 'z')] }
  match given.operands with
  | [] => Task.misuse "missing operand" 1
  | paths => do
      paths.forM fun path => Task.say (Naming.front path ++ if given.has 'z' then "\x00" else "\n")
      pure 0

def printenv : Task Nat := do
  let environment := (← read).environment
  let given ← Task.arguments { refusal := 2 }
  match given.operands with
  | [] => do
      environment.forM fun entry => Task.say (entry.1 ++ "=" ++ entry.2 ++ "\n")
      pure 0
  | names =>
      Task.statusOf <$> Task.all names fun name =>
        match environment.find? fun entry => entry.1 = name with
        | some entry => do
            Task.say (entry.2 ++ "\n")
            pure true
        | none => pure false

def pwd : Task Nat := do
  Task.say (Tree.render (← Task.act Act.cwd) ++ "\n")
  pure 0

-- What is known of the system, as far as it is asked for.
def uname : Task Nat := do
  let given ← Task.arguments {
    flags := ['a', 's', 'o', 'm', 'p', 'i']
    long := [("all", 'a'), ("kernel-name", 's'), ("operating-system", 'o'), ("machine", 'm')] }
  if let extra :: _ := given.operands then Task.misuse ("extra operand " ++ quoted extra) 1
  let known := [('s', "Linux"), ('m', "x86_64"), ('p', "unknown"), ('i', "unknown"),
    ('o', "GNU/Linux")]
  let asked := if given.options.isEmpty then [('s', "Linux")]
    else known.filter fun entry => given.has entry.1
  Task.say (String.intercalate " " (asked.map Prod.snd) ++ "\n")
  pure 0

end Conformance.Tool
