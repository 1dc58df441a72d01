import Conformance.Shell.Directory
import Conformance.Shell.Expansion
import Conformance.Shell.Format
import Conformance.Shell.Jobs
import Conformance.Shell.Limits
import Conformance.Shell.Naming
import Conformance.Shell.Switch

namespace Conformance.Shell

open Machine (Act)
open Text (Bytes)

-- A command that the shell carries out itself.
abbrev Builtin := List String → Step Unit

namespace Builtin

def succeed : Step Unit := Step.setStatus 0

def echo : Builtin := fun args => do
  let (silent, words) := match args with
    | "-n" :: rest => (true, rest)
    | words => (false, words)
  let (bytes, ends) := escapesCarriedOut .shell (String.intercalate " " words)
  succeed
  Step.put (bytes ++ if silent || ends then [] else [10])

def formatFault : Format.Fault → String
  | .notNumber arg => arg ++ ": expected numeric value"
  | .notWhollyNumber arg => arg ++ ": not completely converted"
  | .outOfRange arg => arg ++ ": Numerical result out of range"
  | .badDirective text => text ++ ": invalid directive"
  | .noLetter => "missing format character"

def printf : Builtin := fun args => do
  let (_, args) ← Letter.ofArgs "" args
  match args with
  | [] => Step.fault "usage: printf format [arg ...]"
  | form :: args =>
      let (bytes, faults) := formatted .shell form args
      succeed
      faults.forM fun f => do
        Step.warn (formatFault f)
        Step.setStatus (if f.stops then 2 else 1)
      Step.put bytes

def conditionFault : Condition.Fault → String
  | .wrong word what => word ++ ": " ++ what
  | .notNumber word => "Illegal number: " ++ word
  | .unclosed => "closing paren expected"

def test : Builtin := fun args => do
  let t ← if Condition.isAboutFiles args then Step.act Act.files else pure Tree.empty
  let cwd ← Step.act Act.cwd
  match Condition.holds t cwd args with
  | .ok truth => Step.setStatus (if truth then 0 else 1)
  | .error f => Step.fault (conditionFault f)

def bracket : Builtin := fun args => do
  if args.getLast? = some "]" then test args.dropLast else Step.fault "missing ]"

def exit : Builtin := fun args => do
  match args with
  | [] => throw .exits
  | arg :: _ => do
      Step.setStatus ((← number arg) % 256)
      throw .exits

def leave : Builtin := fun args => do
  match args with
  | [] => throw .returned
  | arg :: _ => do
      Step.setStatus (← number arg)
      throw .returned

-- Leaves so many loops, or all that there are.
def loopExit (flow : Nat → Flow) : Builtin := fun args => do
  let levels ← match args with
    | [] => pure 1
    | arg :: _ => number arg
  if levels = 0 then Step.fault ("Illegal number: " ++ args.headD "")
  else
    let s ← get
    Step.setStatus 0
    if s.loops > 0 then throw (flow (min levels s.loops))

-- The names that are marked, as commands that mark them.
def listMarked (command : String) (chosen : Binding → Bool) : Step Unit := do
  let s ← get
  let chosen := (s.bindings.filter chosen).mergeSort fun a b => a.name ≤ b.name
  succeed
  Step.say (String.join (chosen.map fun b =>
    command ++ " " ++ b.name ++ (b.value.elim "" fun v => "=" ++ singleQuoted v) ++ "\n"))

-- The name and the value, if there is one, in an argument.
def nameAndValue (arg : String) : String × Option String :=
  let front := arg.toList.takeWhile (· ≠ '=')
  match arg.toList.drop front.length with
  | _ :: value => (String.ofList front, some (String.ofList value))
  | [] => (arg, none)

def mark (command : String) (chosen : Binding → Bool) (marked : Binding → Binding) : Builtin :=
  fun args => do
    let (letters, args) ← Letter.ofArgs "p" args
    if !letters.isEmpty || args.isEmpty then listMarked command chosen
    else
      args.forM fun arg => do
        let (name, value) := nameAndValue arg
        if !isName name then Step.fault (name ++ ": bad variable name")
        if let some value := value then Step.assign name value
        modify fun s =>
          s.setBinding (marked ((s.binding? name).getD ⟨name, none, false, false⟩))
      succeed

def unset : Builtin := fun args => do
  let (letters, names) ← Letter.ofArgs "vf" args
  names.forM fun name => do
    let s ← get
    if letters.getLast?.any fun l => l.char = 'f' then
      set { s with functions := s.functions.filter fun f => f.1 ≠ name }
    else if (s.binding? name).any Binding.fixed then Step.fault (name ++ ": is read only")
    else if !isName name then Step.fault (name ++ ": bad variable name")
    else set (s.unset name)
  succeed

def showVariables : Step Unit := do
  let s ← get
  let sorted := s.bindings.mergeSort fun a b => a.name ≤ b.name
  succeed
  Step.say (String.join (sorted.filterMap fun b =>
    b.value.map fun v => b.name ++ "=" ++ singleQuoted v ++ "\n"))

def setOptions : Builtin := fun args => do
  match args, Switching.ofArgs false (← get).options args with
  | [], _ => showVariables
  | _, .error text => Step.fault text
  | _, .ok r => do
      modify fun s => { s with options := r.options }
      if r.isEnded || !r.args.isEmpty then
        modify fun s => { s with args := r.args, optionOffset := 0 }
      succeed
      Step.say r.shown

def shift : Builtin := fun args => do
  let count ← match args with
    | [] => pure 1
    | arg :: _ => number arg
  if count > (← get).args.length then Step.fault "can't shift that many"
  else
    modify fun s => { s with args := s.args.drop count, optionOffset := 0 }
    succeed

def trap : Builtin := fun args => do
  let (_, args) ← Letter.ofArgs "" args
  match args with
  | [] => do
      let s ← get
      let sorted := s.traps.mergeSort fun a b => a.1 ≤ b.1
      succeed
      Step.say (String.join (sorted.map fun entry =>
        "trap -- " ++ singleQuoted entry.2 ++ " " ++ Machine.Signal.shownName entry.1 ++ "\n"))
  | first :: rest =>
      if rest.isEmpty || (first.toNat?.isSome && (signal? 0 first).isSome) then
        provideAll none (first :: rest)
      else provideAll (if first = "-" then none else some first) rest

-- The names are the function's own until it ends.
def makeLocal : Builtin := fun args => do
  let s ← get
  if s.functionDepth = 0 then Step.fault "not in a function"
  else
    args.forM fun arg => do
      let (name, value) := nameAndValue arg
      if !isName name && arg ≠ "-" then Step.fault (name ++ ": bad variable name")
      modify fun s => { s with shadowed := match s.shadowed with
        | [] => []
        | level :: rest =>
            if level.any fun entry => entry.1 = name then level :: rest
            else ((name, s.shadowing name) :: level) :: rest }
      if let some value := value then Step.assign name value
    succeed

-- A line of the input, byte by byte, with the bytes that a backslash protects,
-- and whether the line was ended.
def readLine (raw : Bool) : Nat → List (UInt8 × Bool) → Act (List (UInt8 × Bool) × Bool)
  | 0, done => pure (done.reverse, false)
  | fuel + 1, done => do
      match ← Act.read 0 1 with
      | .ok [b] =>
          if b = 10 then pure (done.reverse, true)
          else if b = 92 ∧ !raw then
            match ← Act.read 0 1 with
            | .ok [c] => readLine raw fuel (if c = 10 then done else (c, true) :: done)
            | _ => pure (done.reverse, false)
          else readLine raw fuel ((b, false) :: done)
      | _ => pure (done.reverse, false)

-- The values that a line has for some number of names. The last one gets all
-- that is left.
def shareOut (separators : String) : Nat → List Mark → List String
  | 0, _ => []
  | count + 1, marks =>
      let separates (m : Mark) : Bool := !m.2 && separators.toList.contains m.1
      let isGap (m : Mark) : Bool := separates m && m.1.isWhitespace
      let text (marks : List Mark) : String := String.ofList (marks.map Prod.fst)
      let marks := marks.dropWhile isGap
      if count = 0 then [text (marks.reverse.dropWhile isGap).reverse]
      else
        let taken := marks.takeWhile fun m => !separates m
        let rest := (marks.drop taken.length).dropWhile isGap
        let rest := match rest with
          | m :: more => if separates m then more else rest
          | [] => []
        text taken :: shareOut separators count rest

def read : Builtin := fun args => do
  let (letters, names) ← Letter.ofArgs "p:r" args
  match names with
  | [] => Step.fault "arg count"
  | names => do
      let (bytes, ended) ← Step.act (readLine (Letter.has 'r' letters) Act.patience [])
      let s ← get
      let isProtected := bytes.any fun b => b.2
      let marks : List Mark :=
        if isProtected then bytes.map fun b => (Char.ofNat b.1.toNat, b.2)
        else (Text.lossy (bytes.map Prod.fst)).toList.map fun c => (c, false)
      let values := shareOut s.separators names.length marks
      (names.zip values).forM fun entry =>
        if isName entry.1 then Step.assign entry.1 entry.2
        else Step.fault (entry.1 ++ ": bad variable name")
      Step.setStatus (if ended then 0 else 1)

-- One option of the arguments at a time.
def getopts : Builtin := fun args => do
  match args with
  | form :: name :: given => do
      let s ← get
      let given := if given.isEmpty then s.args else given
      let index := ((s.value? "OPTIND").bind String.toNat?).getD 1
      let offset := if index = 1 ∧ s.optionOffset = 0 then 0 else s.optionOffset
      let quiet := form.startsWith ":"
      let finish (next : Nat) : Step Unit := do
        Step.assign "OPTIND" (toString next)
        Step.assign name "?"
        modify fun s => { s with optionOffset := 0 }
        Step.setStatus 1
      let current := (given.getD (index - 1) "").toList
      let letters := current.drop (if offset = 0 then 1 else offset)
      if offset = 0 ∧ current = ['-', '-'] then finish (index + 1)
      else if offset = 0 ∧ (current.head? ≠ some '-' ∨ current.length < 2) then finish index
      else match letters with
        | [] => finish index
        | c :: more =>
            let behind := (form.toList.dropWhile (· ≠ c)).drop 1
            let known := form.toList.contains c ∧ c ≠ ':'
            let position := current.length - more.length
            let (index, offset) := if more.isEmpty then (index + 1, 0) else (index, position)
            succeed
            if !known then
              Step.assign name "?"
              if quiet then Step.assign "OPTARG" (String.ofList [c])
              else
                Step.remark ("Illegal option -" ++ String.ofList [c])
                modify fun s => s.unset "OPTARG"
              Step.assign "OPTIND" (toString index)
              modify fun s => { s with optionOffset := offset }
            else if behind.head? = some ':' then
              let (value, index) := if !more.isEmpty then (some (String.ofList more), index + 1)
                else (given[index - 1]?, index + 1)
              match value with
              | some value => do
                  Step.assign name (String.ofList [c])
                  Step.assign "OPTARG" value
              | none =>
                  if quiet then
                    Step.assign name ":"
                    Step.assign "OPTARG" (String.ofList [c])
                  else
                    Step.assign name "?"
                    Step.remark ("No arg for -" ++ String.ofList [c] ++ " option")
                    modify fun s => s.unset "OPTARG"
              Step.assign "OPTIND" (toString index)
              modify fun s => { s with optionOffset := 0 }
            else
              Step.assign name (String.ofList [c])
              modify fun s => s.unset "OPTARG"
              Step.assign "OPTIND" (toString index)
              modify fun s => { s with optionOffset := offset }
  | _ => Step.fault "Usage: getopts optstring var [arg...]"

def nothing : Builtin := fun _ => succeed

-- The commands that need no others, by name.
def table : List (String × Builtin) := [
  (":", nothing), ("true", nothing), ("false", fun _ => Step.setStatus 1), ("echo", echo),
  ("printf", printf), ("test", test), ("[", bracket), ("pwd", pwd), ("cd", cd), ("chdir", cd),
  ("exit", exit), ("return", leave), ("break", loopExit .broken),
  ("continue", loopExit .continued), ("unset", unset), ("set", setOptions), ("shift", shift),
  ("export", mark "export" Binding.exported fun b => { b with exported := true }),
  ("readonly", mark "readonly" Binding.fixed fun b => { b with fixed := true }), ("trap", trap),
  ("umask", umask), ("ulimit", ulimit), ("local", makeLocal), ("read", read), ("wait", wait),
  ("kill", kill), ("getopts", getopts), ("type", type), ("times", fun _ => do
    succeed
    Step.say "0m0.000000s 0m0.000000s\n0m0.000000s 0m0.000000s\n"),
  ("hash", hash), ("alias", nickname), ("unalias", unalias), ("jobs", jobs), ("fg", moveJob),
  ("bg", moveJob)]

end Builtin

end Conformance.Shell
