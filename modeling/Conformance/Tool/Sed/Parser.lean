import Conformance.Text.Lines
import Conformance.Tool.Sed.Script

namespace Conformance.Tool.Sed

open Text (Bytes)

-- What is wrong with a script, and after how many bytes that shows.
structure Fault where
  place : Nat
  text : String

-- A script that is being read, the form of its patterns, and whether it may use
-- files and commands.
structure Reading where
  rest : Bytes
  place : Nat := 0
  extended : Bool := false
  confined : Bool := false

abbrev Reader := StateT Reading (Except Fault)

namespace Reader

def fail (text : String) : Reader α := do
  throw ⟨(← get).place, text⟩

def peek : Reader (Option UInt8) := do
  pure (← get).rest.head?

def skip : Reader Unit :=
  modify fun s => match s.rest with
    | [] => s
    | _ :: rest => { s with rest := rest, place := s.place + 1 }

-- The next byte. The end counts as a place of its own.
def next : Reader (Option UInt8) := do
  let b ← peek
  skip
  pure b

def takeWhile (p : UInt8 → Bool) : Reader Bytes := do
  let s ← get
  let taken := s.rest.takeWhile p
  set { s with rest := s.rest.drop taken.length, place := s.place + taken.length }
  pure taken

end Reader

def isBlank (b : UInt8) : Bool :=
  b = 32 || b = 9

def isSpace (b : UInt8) : Bool :=
  b = 32 || 9 ≤ b && b ≤ 13

def isDigit (b : UInt8) : Bool :=
  48 ≤ b && b ≤ 57

def numberOf (digits : Bytes) : Nat :=
  digits.foldl (fun (n : Nat) (d : UInt8) => 10 * n + (d.toNat - 48)) 0

def number : Reader Nat := do
  pure (numberOf (← Reader.takeWhile isDigit))

-- The byte that a letter behind a backslash means everywhere.
def control? (c : UInt8) : Option UInt8 :=
  match Char.ofNat c.toNat with
  | 'n' => some 10
  | 't' => some 9
  | 'f' => some 12
  | 'v' => some 11
  | 'a' => some 7
  | 'r' => some 13
  | _ => none

-- The value of some digits at the front, and what is behind them.
def digitsOf (base most : Nat) (bs : Bytes) : Option (UInt8 × Bytes) :=
  let value? (b : UInt8) : Option Nat :=
    (Text.hexValue? (Char.ofNat b.toNat)).filter fun n => n < base
  let digits := (bs.take most).takeWhile fun b => (value? b).isSome
  if digits.isEmpty then none
  else
    let value := digits.foldl (fun n b => n * base + (value? b).getD 0) 0
    some ((value % 256).toUInt8, bs.drop digits.length)

-- The byte that a backslash and what follows it mean, and what is behind that.
def produced? (c : UInt8) (rest : Bytes) : Option (UInt8 × Bytes) :=
  match Char.ofNat c.toNat, rest with
  | 'x', rest => digitsOf 16 2 rest
  | 'd', rest => digitsOf 10 3 rest
  | 'o', rest => digitsOf 8 3 rest
  | 'c', b :: rest =>
      let b := if 97 ≤ b && b ≤ 122 then b - 32 else b
      some (if b ≥ 64 then b - 64 else b + 64, rest)
  | _, rest => (control? c).map fun b => (b, rest)

-- The inside of brackets up to the closing one.
def bracketText : Nat → Bool → Bytes → Option Bytes
  | 0, _, _ => none
  | _, _, [] => none
  | fuel + 1, first, b :: rest =>
      if b = 93 ∧ !first then some [b]
      else match b, rest with
        | 91, c :: more =>
            if c ∈ [58, 46, 61] then
              match Regex.Bracket.upTo c more with
              | some (name, _) =>
                  let taken := 91 :: c :: name ++ [c, 93]
                  (bracketText fuel false (rest.drop (taken.length - 1))).map (taken ++ ·)
              | none => (bracketText fuel false rest).map (b :: ·)
            else (bracketText fuel false rest).map (b :: ·)
        | b, rest => (bracketText fuel (first && b = 94) rest).map (b :: ·)

-- The text up to a delimiter, which a backslash or brackets protect.
def delimited (delimiter : UInt8) (inPattern : Bool) : Nat → Bytes → Reader (Option Bytes)
  | 0, _ => pure none
  | fuel + 1, taken => do
      match ← Reader.next with
      | none => pure none
      | some 92 => do
          match ← Reader.next with
          | none => pure none
          | some c =>
              let isBare := c = 10 || c = delimiter && (inPattern || c ≠ 38)
              let taken := if c = 110 && inPattern then 10 :: taken
                else if isBare then c :: taken
                else c :: 92 :: taken
              delimited delimiter inPattern fuel taken
      | some b =>
          if b = delimiter then pure (some taken.reverse)
          else if b = 10 then pure none
          else if b = 91 && inPattern then do
            let s ← get
            match bracketText (s.rest.length + 1) true s.rest with
            | none => do
                set { s with rest := [], place := s.place + s.rest.length }
                pure none
            | some inside => do
                set { s with
                  rest := s.rest.drop inside.length, place := s.place + inside.length }
                delimited delimiter inPattern fuel (inside.reverse ++ b :: taken)
          else delimited delimiter inPattern fuel (b :: taken)

def delimitedText (delimiter : UInt8) (inPattern : Bool) : Reader (Option Bytes) := do
  delimited delimiter inPattern ((← get).rest.length + 1) []

-- A pattern's text with the bytes that letters mean.
def controlled : Nat → Bytes → Bytes
  | 0, bs => bs
  | _, [] => []
  | fuel + 1, 92 :: c :: rest =>
      match if c = 98 then none else produced? c rest with
      | some (b, rest) => b :: controlled fuel rest
      | none => 92 :: c :: controlled fuel rest
  | fuel + 1, b :: rest => b :: controlled fuel rest

def patternOf (text : Bytes) (manner : Regex.Manner) : Reader Pattern := do
  if text.isEmpty then pure .last
  else match Regex.parse ⟨(← get).extended, true, false⟩ (controlled text.length text) with
    | .ok ⟨r, groups, _⟩ => pure (.of r groups manner)
    | .error f => Reader.fail f.message

-- A pattern as an address, with the letters behind it.
def patternAddress (delimiter : UInt8) : Reader Address := do
  match ← delimitedText delimiter true with
  | none => Reader.fail "unterminated address regex"
  | some text => do
      let letters ← Reader.takeWhile fun b => b = 73 || b = 77
      pure (.pattern (← patternOf text
        { folded := letters.contains 73, manyLines := letters.contains 77 }))

def address? : Reader (Option Address) := do
  match ← Reader.peek with
  | some 36 => do
      Reader.skip
      pure (some .lastLine)
  | some 47 => do
      Reader.skip
      some <$> patternAddress 47
  | some 92 => do
      Reader.skip
      match ← Reader.next with
      | some d => some <$> patternAddress d
      | none => Reader.fail "unterminated address regex"
  | some b =>
      if isDigit b then do
        let n ← number
        discard (Reader.takeWhile isBlank)
        if (← Reader.peek) = some 126 then do
          Reader.skip
          pure (some (.steps n (← number)))
        else pure (some (.line n))
      else pure none
  | none => pure none

def stop? : Reader (Option Stop) := do
  match ← Reader.peek with
  | some 43 => do
      Reader.skip
      pure (some (.more (← number)))
  | some 126 => do
      Reader.skip
      pure (some (.multiple (← number)))
  | _ => pure ((← address?).map .address)

def selection : Reader Selection := do
  match ← address? with
  | none => pure .every
  | some first => do
      discard (Reader.takeWhile isBlank)
      if (← Reader.peek) = some 44 then do
        Reader.skip
        discard (Reader.takeWhile isBlank)
        match ← stop? with
        | none => Reader.fail "unexpected `,'"
        | some stop => pure (.range first stop)
      else pure (.one first)

-- Whether the line before the first one is where no pattern is to be found next.
def isMisplaced : Selection → Bool
  | .one (.line 0) => true
  | .range (.line 0) (.address (.pattern _)) => false
  | .range (.line 0) _ => true
  | _ => false

-- The end of a command.
def ending : Reader Unit := do
  discard (Reader.takeWhile isBlank)
  match ← Reader.peek with
  | none => pure ()
  | some 10 => Reader.skip
  | some 59 => Reader.skip
  | some 125 => pure ()
  | some 35 => pure ()
  | some _ => do
      Reader.skip
      Reader.fail "extra characters after command"

-- Lines of text up to one that no backslash goes on from.
def textLines : Nat → Bytes → Reader Bytes
  | 0, taken => pure taken.reverse
  | fuel + 1, taken => do
      match ← Reader.next with
      | none => pure (10 :: taken).reverse
      | some 10 => pure (10 :: taken).reverse
      | some 92 => do
          let s ← get
          match s.rest with
          | [] => pure (10 :: taken).reverse
          | c :: rest =>
              let (b, rest) := if c = 92 then (c, rest) else (produced? c rest).getD (c, rest)
              set { s with rest := rest, place := s.place + (s.rest.length - rest.length) }
              textLines fuel (b :: taken)
      | some b => textLines fuel (b :: taken)

-- The text of a command. Behind a backslash blanks belong to it.
def text : Reader Bytes := do
  discard (Reader.takeWhile isBlank)
  match ← Reader.peek with
  | none => Reader.fail "expected \\ after `a', `c' or `i'"
  | some 92 => do
      Reader.skip
      let s ← get
      let blanks := s.rest.takeWhile isBlank
      match s.rest.drop blanks.length with
      | 10 :: rest => set { s with rest := rest, place := s.place + blanks.length + 1 }
      | _ => pure ()
      let s ← get
      if s.rest.isEmpty then pure []
      else match s.rest with
        | 92 :: _ => textLines (s.rest.length + 1) []
        | b :: rest => do
            set { s with rest := rest, place := s.place + 1 }
            if b = 10 then pure [10] else textLines (rest.length + 1) [b]
        | [] => pure []
  | some _ => textLines ((← get).rest.length + 1) []

def restOfLine : Reader Bytes := do
  discard (Reader.takeWhile isBlank)
  let line ← Reader.takeWhile (· ≠ 10)
  Reader.skip
  pure line

def fileName : Reader String := do
  if (← get).confined then Reader.fail "e/r/w commands disabled in sandbox mode"
  let name ← restOfLine
  if name.isEmpty then Reader.fail "missing filename in r/R/w/W commands"
  else pure (Text.lossy name)

def labelName : Reader String := do
  discard (Reader.takeWhile isBlank)
  pure (Text.lossy (← Reader.takeWhile fun b => !(isSpace b || b = 59 || b = 125)))

-- What a replacement is made of.
def pieces : Nat → Bytes → List Piece
  | 0, _ => []
  | _, [] => []
  | fuel + 1, 38 :: rest => .group 0 :: pieces fuel rest
  | fuel + 1, 92 :: c :: rest =>
      if isDigit c then .group (c.toNat - 48) :: pieces fuel rest
      else
        let (piece, rest) : Piece × Bytes := match Char.ofNat c.toNat with
          | 'U' => (.casing .upper, rest)
          | 'L' => (.casing .lower, rest)
          | 'u' => (.casing .nextUpper, rest)
          | 'l' => (.casing .nextLower, rest)
          | 'E' => (.casing .none, rest)
          | _ =>
              let (b, rest) := (produced? c rest).getD (c, rest)
              (.text [b], rest)
        piece :: pieces fuel rest
  | fuel + 1, b :: rest =>
      let plain := b :: rest.takeWhile fun b => b ≠ 38 && b ≠ 92
      .text plain :: pieces fuel ((b :: rest).drop plain.length)

-- The letters and numbers behind a substitution.
structure Flags where
  all : Bool := false
  first : Option Nat := none
  prints : Bool := false
  folded : Bool := false
  manyLines : Bool := false
  file : Option String := none

def flags : Nat → Flags → Reader Flags
  | 0, f => pure f
  | fuel + 1, f => do
      match (← Reader.peek).map fun b => Char.ofNat b.toNat with
      | some 'g' => do
          Reader.skip
          if f.all then Reader.fail "multiple `g' options to `s' command"
          else flags fuel { f with all := true }
      | some 'p' => do
          Reader.skip
          if f.prints then Reader.fail "multiple `p' options to `s' command"
          else flags fuel { f with prints := true }
      | some 'i' => do
          Reader.skip
          flags fuel { f with folded := true }
      | some 'I' => do
          Reader.skip
          flags fuel { f with folded := true }
      | some 'm' => do
          Reader.skip
          flags fuel { f with manyLines := true }
      | some 'M' => do
          Reader.skip
          flags fuel { f with manyLines := true }
      | some 'w' => do
          Reader.skip
          pure { f with file := some (← fileName) }
      | some c =>
          if c.isDigit then do
            let n ← number
            if n = 0 then Reader.fail "number option to `s' command may not be zero"
            else if f.first.isSome then
              Reader.fail "multiple number options to `s' command"
            else flags fuel { f with first := some n }
          else if c = ' ' ∨ c = '\t' then do
            Reader.skip
            flags fuel f
          else if c = '\n' ∨ c = ';' ∨ c = '\x7d' ∨ c = '#' then do
            ending
            pure f
          else do
            Reader.skip
            Reader.fail "unknown option to `s'"
      | none => pure f

def substitution : Reader Action := do
  let unfinished : Reader Action := Reader.fail "unterminated `s' command"
  match ← Reader.next with
  | none => unfinished
  | some d =>
      match ← delimitedText d true with
      | none => unfinished
      | some patternText =>
          match ← delimitedText d false with
          | none => unfinished
          | some replacementText => do
              let f ← flags ((← get).rest.length + 2) {}
              let p ← patternOf patternText { folded := f.folded, manyLines := f.manyLines }
              let replacement := pieces (replacementText.length + 1) replacementText
              let highest := replacement.foldl (fun n piece => match piece with
                | .group g => max n g
                | _ => n) 0
              match p with
              | .of _ groups _ =>
                  if groups < highest then
                    Reader.fail ("invalid reference \\" ++ toString highest ++
                      " on `s' command's RHS")
              | .last => pure ()
              pure (.substitute ⟨p, replacement, f.first.getD 1, f.all, f.prints, f.file⟩)

-- The bytes of one side of a transliteration.
def sideOf : Nat → Bytes → Bytes
  | 0, _ => []
  | _, [] => []
  | fuel + 1, 92 :: c :: rest =>
      if c = 92 then 92 :: sideOf fuel rest
      else
        let (b, rest) := (produced? c rest).getD (c, rest)
        b :: sideOf fuel rest
  | fuel + 1, b :: rest => b :: sideOf fuel rest

def transliteration : Reader Action := do
  let unfinished : Reader Action := Reader.fail "unterminated `y' command"
  match ← Reader.next with
  | none => unfinished
  | some d =>
      match ← delimitedText d false with
      | none => unfinished
      | some first =>
          match ← delimitedText d false with
          | none => unfinished
          | some second => do
              let a := sideOf first.length first
              let b := sideOf second.length second
              if a.length ≠ b.length then
                Reader.fail "strings for `y' command are different lengths"
              else do
                ending
                pure (.transliterate (a.zip b))

-- A command before jumps have found their places.
structure Draft where
  selection : Selection
  negated : Bool
  action : Action
  label : Option String := none

def simpleActions : List (Char × Action) := [
  ('d', .delete), ('D', .deleteLine), ('g', .get), ('G', .getMore), ('h', .hold),
  ('H', .holdMore), ('x', .exchange), ('n', .next), ('N', .nextMore), ('p', .print),
  ('P', .printLine), ('=', .printNumber), ('F', .printName), ('z', .empty)]

-- The version of the editor that this is.
def version : List Nat := [4, 9, 0]

-- Whether a script wants a later version.
def isNewer (wanted : String) : Bool :=
  let parts := (wanted.splitOn ".").map fun part => part.toNat?.getD 0
  let parts := (parts ++ [0, 0, 0]).take 3
  match (parts.zip version).find? fun p => p.1 ≠ p.2 with
  | some (a, b) => b < a
  | none => false

-- The action of a command by its letter, and the label that it names.
def actionOf (c : Char) : Reader (Action × Option String) := do
  let plain (a : Action) : Reader (Action × Option String) := pure (a, none)
  match simpleActions.find? fun a => a.1 = c with
  | some (_, a) => do
      ending
      plain a
  | none =>
      if c = '\x7b' then plain (.opens 0)
      else if c = '\x7d' then do
        ending
        plain .closes
      else if c = 'l' then do
        discard (Reader.takeWhile isBlank)
        let digits ← Reader.takeWhile isDigit
        ending
        plain (.list (if digits.isEmpty then none else some (numberOf digits)))
      else if c = 'v' then do
        discard (Reader.takeWhile isBlank)
        let wanted := Text.lossy (← Reader.takeWhile fun b => !(isSpace b || b = 59))
        if isNewer wanted then Reader.fail "expected newer version of sed"
        ending
        plain .label
      else if c = 's' then do plain (← substitution)
      else if c = 'y' then do plain (← transliteration)
      else if c = 'a' then do plain (.append (← text))
      else if c = 'i' then do plain (.insert (← text))
      else if c = 'c' then do plain (.change (← text))
      else if c = 'q' ∨ c = 'Q' then do
        discard (Reader.takeWhile isBlank)
        let status ← number
        ending
        plain (.quit status (c = 'q'))
      else if c = 'r' then do plain (.readFile (← fileName))
      else if c = 'R' then do plain (.readLine (← fileName))
      else if c = 'w' then do plain (.writeFile (← fileName))
      else if c = 'W' then do plain (.writeLine (← fileName))
      else if c = ':' then do
        let name ← labelName
        if name = "" then Reader.fail "\":\" lacks a label"
        else pure (.label, some name)
      else if c = 'b' ∨ c = 't' ∨ c = 'T' then do
        let name ← labelName
        let a : Action := if c = 'b' then .jump none else .jumpIfReplaced (c = 't') none
        pure (a, if name = "" then none else some name)
      else Reader.fail ("unknown command: `" ++ String.ofList [c] ++ "'")

-- The commands of a script, with the places where blocks are open, inner ones
-- first.
def drafts : Nat → List Nat → List Draft → Reader (List Draft)
  | 0, _, done => pure done.reverse
  | fuel + 1, blocks, done => do
      discard (Reader.takeWhile fun b => isSpace b || b = 59)
      match ← Reader.peek with
      | none =>
          if blocks.isEmpty then pure done.reverse
          else throw ⟨0, "unmatched `\x7b'"⟩
      | some 35 => do
          discard (Reader.takeWhile (· ≠ 10))
          drafts fuel blocks done
      | some _ => do
          let chosen ← selection
          discard (Reader.takeWhile isSpace)
          let marks ← Reader.takeWhile fun b => b = 33
          if marks.length > 1 then Reader.fail "multiple `!'s"
          discard (Reader.takeWhile isSpace)
          match ← Reader.next with
          | none => Reader.fail "missing command"
          | some b => do
              let c := Char.ofNat b.toNat
              if isMisplaced chosen then Reader.fail "invalid usage of line address 0"
              let hasSelection := match chosen with
                | .every => false
                | _ => true
              if c = '\x7d' && blocks.isEmpty then Reader.fail "unexpected `\x7d'"
              if c = '\x7d' && hasSelection then
                Reader.fail "\x7d doesn't want any addresses"
              if c = ':' && hasSelection then Reader.fail ": doesn't want any addresses"
              if c = '#' && hasSelection then
                Reader.fail "comments don't accept any addresses"
              let isRange := match chosen with
                | .range _ _ => true
                | _ => false
              if (c = 'q' ∨ c = 'Q') && isRange then
                Reader.fail "command only uses one address"
              let (action, label) ← actionOf c
              let here := done.length
              let draft : Draft := ⟨chosen, !marks.isEmpty, action, label⟩
              match action, blocks with
              | .opens _, blocks => drafts fuel (here :: blocks) (draft :: done)
              | .closes, start :: blocks =>
                  let done := done.reverse.modify start fun d => { d with action := .opens here }
                  drafts fuel blocks (draft :: done.reverse)
              | _, blocks => drafts fuel blocks (draft :: done)

-- The place of a label.
def placeOf? (all : List Draft) (name : String) : Option Nat :=
  all.findIdx? fun (d : Draft) => match d.action with
    | .label => d.label = some name
    | _ => false

-- The commands with the places that jumps lead to, or a label that there is
-- not.
def settled (all : List Draft) : Except String Script :=
  (all.mapM fun (d : Draft) =>
    let place? : Except String (Option Nat) := match d.label with
      | none => .ok none
      | some name =>
          match placeOf? all name with
          | some place => .ok (some place)
          | none => .error name
    match d.action with
    | .jump _ => place?.map fun place => (⟨d.selection, d.negated, .jump place⟩ : Command)
    | .jumpIfReplaced truth _ => place?.map fun place =>
        ⟨d.selection, d.negated, .jumpIfReplaced truth place⟩
    | action => .ok ⟨d.selection, d.negated, action⟩).map List.toArray

def parse (extended confined : Bool) (script : Bytes) : Except Fault (List Draft) := do
  let (all, _) ← (drafts (script.length + 2) [] []).run
    { rest := script, extended := extended, confined := confined }
  .ok all

end Conformance.Tool.Sed
