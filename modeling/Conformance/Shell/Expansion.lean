import Conformance.Shell.Arithmetic
import Conformance.Shell.Parser
import Conformance.Shell.Pattern
import Conformance.Shell.Session

namespace Conformance.Shell

open Machine (Act)
open Text (Bytes)

-- Runs a command for what it writes.
abbrev Gather := Command → Step String

-- A part of what a word expands to. What is protected means no more than
-- itself; what splits is cut at separators. A boundary is between words that
-- stay apart.
inductive Part where
  | chars (s : String) (isProtected splits : Bool)
  | boundary
deriving DecidableEq, Repr

namespace Part

def marks : Part → List Mark
  | chars s isProtected _ => s.toList.map fun c => (c, isProtected)
  | boundary => [(' ', true)]

-- The parts as one text.
def joined (parts : List Part) : String :=
  String.ofList (parts.flatMap fun p => p.marks.map Prod.fst)

end Part

-- Words as they come out of the splitting: those that are complete, latest
-- first; the one that is growing, backwards; and whether a blank ended the
-- last one.
structure Fields where
  complete : List (List Mark) := []
  growing : Option (List Mark) := none
  afterBlank : Bool := false

namespace Fields

def close (f : Fields) : Fields :=
  match f.growing with
  | some marks => { complete := marks.reverse :: f.complete }
  | none => f

def extend (f : Fields) (marks : List Mark) : Fields :=
  { f with growing := some (marks.reverse ++ f.growing.getD []), afterBlank := false }

-- One character of a part that splits. Separators that are no blanks end a
-- word even when it is empty.
def split (separators : String) (isProtected : Bool) (f : Fields) (c : Char) : Fields :=
  if !separators.toList.contains c then f.extend [(c, isProtected)]
  else if c.isWhitespace then
    if f.growing.isSome then { f.close with afterBlank := true } else f
  else match f.growing with
    | some _ => f.close
    | none =>
        if f.afterBlank then { f with afterBlank := false }
        else { f with complete := [] :: f.complete }

def add (separators : String) (f : Fields) : Part → Fields
  | .boundary => f.close
  | .chars s isProtected true => s.toList.foldl (split separators isProtected) f
  | .chars "" false false => f
  | .chars s isProtected false => f.extend (s.toList.map fun c => (c, isProtected))

def ofParts (separators : String) (parts : List Part) : List (List Mark) :=
  (parts.foldl (add separators) {}).close.complete.reverse

end Fields

-- Paths that a pattern with slashes stands for, from a path that is there.
def globFrom (t : Tree) (cwd : Place) : String → List (List Mark) → List String
  | base, [] => [base]
  | base, marks :: rest =>
      let literal := String.ofList (marks.map Prod.fst)
      let behind := if rest.isEmpty then "" else "/"
      if !Glob.isWild marks then globFrom t cwd (base ++ literal ++ behind) rest
      else
        let found := match t.locate cwd (if base = "" then "." else base) with
          | .ok place => if t.isDirectory place then t.children place else []
          | .error _ => []
        let hidden := marks.head?.any fun m => m.1 = '.'
        let names := if hidden then "." :: ".." :: found else found
        let fitting := names.filter fun name =>
          (hidden || !name.startsWith ".") && Glob.fits (Glob.parse marks) name.toList
        let fitting := if rest.isEmpty then fitting
          else fitting.filter fun name => t.leadsToDirectory cwd (base ++ name)
        fitting.flatMap fun name => globFrom t cwd (base ++ name ++ behind) rest

def splitAtSlashes : List Mark → List (List Mark)
  | [] => [[]]
  | m :: rest =>
      match splitAtSlashes rest with
      | [] => [[m]]
      | piece :: more => if m.1 = '/' then [] :: piece :: more else (m :: piece) :: more

-- The paths that a word stands for, if there are any; otherwise the word.
def globbed (t : Tree) (cwd : Place) (marks : List Mark) : List String :=
  let literal := String.ofList (marks.map Prod.fst)
  if !Glob.isWild marks then [literal]
  else
    let found := (globFrom t cwd "" (splitAtSlashes marks)).filter fun p =>
      match t.entry cwd p with
      | .ok place => (t.node? place).isSome
      | .error _ => false
    if found.isEmpty then [literal] else found

-- Without the line ends at the end.
def chomped (text : String) : String :=
  String.ofList (text.toList.reverse.dropWhile (· = '\n')).reverse

-- A text behind which a name may end, with the home that its beginning stands
-- for in front.
def homeOf (s : Session) (cs : List Char) (isWhole : Bool) : Word :=
  let plain : Word := [.text (String.ofList cs) false]
  match cs with
  | '~' :: rest =>
      let user := String.ofList (rest.takeWhile (· ≠ '/'))
      let behind := String.ofList (rest.drop user.length)
      let home := if user = "" then s.value? "HOME"
        else if user = "root" then some "/root"
        else none
      match home with
      | some home => if behind = "" ∧ !isWhole then plain else [.text home true, .text behind false]
      | none => plain
  | _ => plain

-- A word that begins with a tilde begins with a home.
def homeExpanded (s : Session) (w : Word) : Word :=
  match w with
  | .text text false :: rest => homeOf s text.toList rest.isEmpty ++ rest
  | w => w

-- Every part of a value between colons may begin with a home.
def homesExpanded (s : Session) (isStart : Bool) : Word → Word
  | .text text false :: rest =>
      let parts := text.splitOn ":"
      let count := parts.length
      let expanded := ((List.range count).zip parts).map fun entry =>
        if entry.1 = 0 ∧ !isStart then [.text entry.2 false]
        else homeOf s entry.2.toList (rest.isEmpty || entry.1 + 1 < count)
      List.intercalate [.text ":" false] expanded ++ homesExpanded s false rest
  | piece :: rest => piece :: homesExpanded s false rest
  | [] => []

-- The complaint about a parameter that is not set.
def unsetFault (name : String) (evenEmpty : Bool) (text : String) : Step α :=
  Step.fault (name ++ ": " ++
    (if text = "" then "parameter not set" ++ (if evenEmpty then " or null" else "") else text))

-- The value of a parameter that must be set when that is asked for.
def wanted (name : String) : Step String := do
  let s ← get
  match s.parameter? name with
  | some value => pure value
  | none =>
      if s.isOn 'u' ∧ name ≠ "@" ∧ name ≠ "*" then unsetFault name false ""
      else pure ""

-- The arguments as words that stay apart.
def argumentParts (isProtected splits : Bool) (args : List String) : List Part :=
  (args.map fun arg => Part.chars arg isProtected splits).intersperse .boundary

-- A parameter without more to it.
def plainParts (name : String) (quoted splitting : Bool) : Step (List Part) := do
  let s ← get
  if name = "@" ∧ (quoted ∨ splitting) then
    pure (argumentParts quoted (!quoted && splitting) s.args)
  else if name = "*" ∧ !quoted ∧ splitting then pure (argumentParts false true s.args)
  else pure [.chars (← wanted name) quoted (!quoted && splitting)]

-- The value of an arithmetic expression.
def sumValue (expression : String) : Step String := do
  let s ← get
  match Arithmetic.evaluate s.parameter? expression with
  | .error f => Step.fault (f.message expression)
  | .ok (value, assigned) => do
      assigned.reverse.forM fun entry => Step.assign entry.1 (toString entry.2)
      pure (toString value)

section

variable (gather : Gather)

mutual

-- The parts of a piece. Only where splitting is on are words cut.
def pieceParts (splitting : Bool) : Piece → Step (List Part)
  | .text s quoted => pure [.chars s quoted false]
  | .malformed => Step.fault "Bad substitution"
  | .output command quoted => do
      let text ← gather command
      pure [.chars (chomped text) quoted (!quoted && splitting)]
  | .sum expression quoted => do
      let value ← sumValue (Part.joined (← wordParts false expression))
      pure [.chars value quoted (!quoted && splitting)]
  | .parameter name .plain quoted => plainParts name quoted splitting
  | .parameter name .length quoted => do
      let s ← get
      let size ← if name = "@" ∨ name = "*" then pure s.joinedArgs.utf8ByteSize
        else do pure (← wanted name).utf8ByteSize
      pure [.chars (toString size) quoted (!quoted && splitting)]
  | .parameter name (.trimmed atFront longest pattern) quoted => do
      let value ← wanted name
      let marks := (← wordParts false pattern).flatMap Part.marks
      pure [.chars (Glob.trimmed atFront longest (Glob.parse marks) value) quoted
        (!quoted && splitting)]
  | .parameter name (.instead sign evenEmpty word) quoted => do
      let s ← get
      let value := s.parameter? name
      let isSet := value.any fun v => !evenEmpty || v ≠ ""
      if sign = '+' then
        if isSet then instead splitting quoted word else pure []
      else if isSet then plainParts name quoted splitting
      else if sign = '-' then instead splitting quoted word
      else if sign = '=' then
        let text := Part.joined (← wordParts false word)
        Step.assign name text
        pure [.chars text quoted (!quoted && splitting)]
      else
        let text := Part.joined (← wordParts false word)
        unsetFault name (evenEmpty && word.isEmpty) text

-- The parts of a word that stands in for a parameter.
def instead (splitting quoted : Bool) (word : List Piece) : Step (List Part) := do
  let parts ← wordParts splitting word
  let shown (p : Part) : Part := match p with
    | .chars s false false => .chars s quoted (!quoted && splitting)
    | p => p
  if quoted && parts.isEmpty then pure [.chars "" true false] else pure (parts.map shown)

def wordParts (splitting : Bool) : List Piece → Step (List Part)
  | [] => pure []
  | piece :: rest => do
      let parts ← pieceParts splitting piece
      pure (parts ++ (← wordParts splitting rest))

end

-- The words that some words expand to.
def expandWords : List Word → Step (List String)
  | [] => pure []
  | w :: rest => do
      let s ← get
      let parts ← wordParts gather true (homeExpanded s w)
      let s ← get
      let fields := Fields.ofParts s.separators parts
      let words ← if s.isOn 'f' || !fields.any Glob.isWild then
          pure (fields.map fun marks => String.ofList (marks.map Prod.fst))
        else do
          let t ← Step.act Act.files
          let cwd ← Step.act Act.cwd
          pure (fields.flatMap (globbed t cwd))
      pure (words ++ (← expandWords rest))

-- A word that stays one.
def expandWhole (w : Word) : Step String := do
  let s ← get
  pure (Part.joined (← wordParts gather false (homeExpanded s w)))

-- The value of an assignment.
def expandAssigned (w : Word) : Step String := do
  let s ← get
  pure (Part.joined (← wordParts gather false (homesExpanded s true w)))

-- The words of a command. Those of one that sets names may be assignments, whose
-- values are not split.
def expandCommand (words : List Word) : Step (List String) := do
  let plain := words.map Word.bare?
  let behind := plain.dropWhile fun w => w = some "command"
  let sets := behind.head?.any fun w => w ∈ [some "export", some "readonly", some "local"]
  if sets then
    let values ← words.mapM fun w => do
      match Parser.assignment? w with
      | some (name, value) => do pure [name ++ "=" ++ (← expandAssigned gather value)]
      | none => expandWords gather [w]
    pure values.flatten
  else expandWords gather words

-- A word as a pattern.
def expandPattern (w : Word) : Step (List Glob) := do
  let s ← get
  pure (Glob.parse ((← wordParts gather false (homeExpanded s w)).flatMap Part.marks))

end

end Conformance.Shell
