import Conformance.Tool.Lines

-- The orders of lines and of their keys.
namespace Conformance.Tool

open Text (Bytes)

-- The order of byte strings: the first byte that differs decides.
def compareBytes : Bytes → Bytes → Ordering
  | [], [] => .eq
  | [], _ :: _ => .lt
  | _ :: _, [] => .gt
  | a :: as, b :: bs => if a < b then .lt else if b < a then .gt else compareBytes as bs

def upperByte (b : UInt8) : UInt8 :=
  if 97 ≤ b && b ≤ 122 then b - 32 else b

def isBlankByte (b : UInt8) : Bool :=
  b = 32 || b = 9

def isDigitByte (b : UInt8) : Bool :=
  48 ≤ b && b ≤ 57

def isLetterByte (b : UInt8) : Bool :=
  65 ≤ upperByte b && upperByte b ≤ 90

namespace Ranking

-- How keys are compared. Blanks may be skipped where a key starts and where
-- it ends.
structure Manner where
  numeric : Bool := false
  general : Bool := false
  human : Bool := false
  version : Bool := false
  random : Bool := false
  month : Bool := false
  reversed : Bool := false
  folded : Bool := false
  skipsAtStart : Bool := false
  skipsAtEnd : Bool := false
  dictionary : Bool := false
  printable : Bool := false
deriving DecidableEq, Repr

namespace Manner

-- Which end of a key an option stands at.
inductive Place where
  | start
  | stop
  | both
deriving DecidableEq, Repr

def withLetter (place : Place) (m : Manner) (c : Char) : Option Manner :=
  match c with
  | 'n' => some { m with numeric := true }
  | 'g' => some { m with general := true }
  | 'h' => some { m with human := true }
  | 'V' => some { m with version := true }
  | 'R' => some { m with random := true }
  | 'M' => some { m with month := true }
  | 'r' => some { m with reversed := true }
  | 'f' => some { m with folded := true }
  | 'b' => some { m with
      skipsAtStart := m.skipsAtStart || place ≠ .stop
      skipsAtEnd := m.skipsAtEnd || place ≠ .start }
  | 'd' => some { m with dictionary := true }
  | 'i' => some { m with printable := true }
  | _ => none

-- The manner that the letters at the front of a text add, and what follows.
def withLetters (place : Place) (m : Manner) : List Char → Manner × List Char
  | [] => (m, [])
  | c :: rest =>
      match m.withLetter place c with
      | some m => withLetters place m rest
      | none => (m, c :: rest)

-- The letters that cannot stand together, where there are some.
def clash? (m : Manner) : Option String :=
  let ignores := m.dictionary || m.printable
  let kinds := [m.numeric, m.general, m.human, m.month, m.version || m.random || ignores]
  if (kinds.filter id).length ≤ 1 then none
  else
    let letters := [('d', m.dictionary), ('f', m.folded), ('g', m.general), ('h', m.human),
      ('i', m.printable && !m.dictionary), ('M', m.month), ('n', m.numeric), ('R', m.random),
      ('V', m.version)]
    some (String.ofList ((letters.filter Prod.snd).map Prod.fst))

end Manner

-- A part of a line, from a byte of one field to a byte of another one.
structure Key where
  firstField : Nat := 1
  firstByte : Nat := 1
  lastField : Option Nat := none
  lastByte : Nat := 0
  manner : Manner := {}

def charsOf (line : Bytes) : List Char :=
  (line.dropWhile isBlankByte).map fun b => Char.ofNat b.toNat

-- A number at the front of a text: its sign, digits and places.
def decimal (line : Bytes) : Tool.Decimals :=
  let (negative, body) := match charsOf line with
    | '-' :: rest => (true, rest)
    | cs => (false, cs)
  let whole := body.takeWhile Char.isDigit
  let fraction := match body.drop whole.length with
    | '.' :: rest => rest.takeWhile Char.isDigit
    | _ => []
  let units : Int := ((String.ofList (whole ++ fraction)).toNat?.getD 0 : Nat)
  ⟨if negative then -units else units, fraction.length⟩

def compareDecimals (a b : Tool.Decimals) : Ordering :=
  let places := max a.places b.places
  compare (a.at? places) (b.at? places)

-- What a text stands for where powers of ten and names of numbers count.
inductive General where
  | none
  | notNumber
  | least
  | finite (numerator : Int) (denominator : Nat)
  | greatest

def general (line : Bytes) : General :=
  let (negative, body) := match charsOf line with
    | '-' :: rest => (true, rest)
    | '+' :: rest => (false, rest)
    | cs => (false, cs)
  let name := (body.take 3).map Char.toLower
  if name = ['i', 'n', 'f'] then (if negative then .least else .greatest)
  else if name = ['n', 'a', 'n'] then .notNumber
  else match Decimal.numeral? body with
    | some (r, _, _) =>
        .finite (if negative then -(r.numerator : Int) else r.numerator) r.denominator
    | Option.none => .none

def General.rank : General → Nat
  | none => 0
  | notNumber => 1
  | least => 2
  | finite _ _ => 3
  | greatest => 4

def compareGeneral (a b : General) : Ordering :=
  match a, b with
  | .finite n d, .finite n' d' => compare (n * d') (n' * d)
  | a, b => compare a.rank b.rank

-- The power of 1024 that a letter behind a number means.
def unitOf (line : Bytes) : Nat :=
  let rest := (charsOf line).dropWhile fun c => c.isDigit || c = '.' || c = '-'
  let units := ['K', 'M', 'G', 'T', 'P', 'E', 'Z', 'Y', 'R', 'Q']
  match rest with
  | 'k' :: _ => 1
  | c :: _ => (units.idxOf? c).elim 0 (· + 1)
  | [] => 0

def compareHuman (a b : Bytes) : Ordering :=
  let sign (line : Bytes) : Int := (decimal line).units.sign
  let rank (line : Bytes) : Int := sign line * unitOf line
  ((compare (sign a) (sign b)).then (compare (rank a) (rank b))).then
    (compareDecimals (decimal a) (decimal b))

def monthOf (line : Bytes) : Nat :=
  let name := ((line.dropWhile isBlankByte).take 3).map upperByte
  let months := ["JAN", "FEB", "MAR", "APR", "MAY", "JUN", "JUL", "AUG", "SEP", "OCT", "NOV",
    "DEC"]
  (months.findIdx? fun m => Text.bytesOf m = name).elim 0 (· + 1)

namespace Version

-- Where a byte stands in a version. The end comes first but for a tilde, and
-- letters come before other signs.
def rank : Option UInt8 → Int
  | none => -1
  | some b =>
      if isDigitByte b then 0
      else if isLetterByte b then b.toNat
      else if b = 126 then -2
      else b.toNat + 256

-- The order of two texts up to the next digits of both, and what is left.
def compareSigns : Nat → Bytes → Bytes → Ordering × Bytes × Bytes
  | 0, a, b => (.eq, a, b)
  | fuel + 1, a, b =>
      let isSign (s : Bytes) : Bool := s.head?.any fun c => !isDigitByte c
      if isSign a || isSign b then
        let order := compare (rank a.head?) (rank b.head?)
        if order = .eq then compareSigns fuel (a.drop 1) (b.drop 1) else (order, a, b)
      else (.eq, a, b)

def digits (s : Bytes) : Nat :=
  (s.takeWhile isDigitByte).foldl (fun n b => 10 * n + (b.toNat - 48)) 0

-- The order by signs and numbers in turn.
def compareParts : Nat → Bytes → Bytes → Ordering
  | 0, _, _ => .eq
  | _, [], [] => .eq
  | fuel + 1, a, b =>
      let (order, a, b) := compareSigns (a.length + b.length + 1) a b
      (order.then (compare (digits a) (digits b))).then
        (compareParts fuel (a.dropWhile isDigitByte) (b.dropWhile isDigitByte))

-- What is in front of the endings of a name. The text and the ending come
-- backwards.
def stem : Bytes → Bytes → Bytes → Bytes
  | kept, _, [] => kept
  | kept, ending, b :: rest =>
      if isLetterByte b || isDigitByte b || b = 126 then stem kept (b :: ending) rest
      else if b = 46 && !rest.isEmpty && ending.head?.any fun c => isLetterByte c || c = 126 then
        stem rest [] rest
      else kept

-- The order of names with version numbers in them.
def compareNames (a b : Bytes) : Ordering :=
  let parts (a b : Bytes) : Ordering := compareParts (a.length + b.length + 1) a b
  let rank (s : Bytes) : Nat :=
    if s = [] then 0 else if s = [46] then 1 else if s = [46, 46] then 2
    else if s.head? = some 46 then 3 else 4
  let stemOf (s : Bytes) : Bytes := (stem s.reverse [] s.reverse).reverse
  ((compare (rank a) (rank b)).then (parts (stemOf a) (stemOf b))).then (parts a b)

end Version

def compareIn (m : Manner) (a b : Bytes) : Ordering :=
  let plain (line : Bytes) : Bytes :=
    let line := if m.dictionary then line.filter fun c =>
        isBlankByte c || isLetterByte c || isDigitByte c
      else if m.printable then line.filter fun c => 32 ≤ c && c < 127
      else line
    if m.folded then line.map upperByte else line
  let order := if m.numeric then compareDecimals (decimal a) (decimal b)
    else if m.general then compareGeneral (general a) (general b)
    else if m.human then compareHuman a b
    else if m.month then compare (monthOf a) (monthOf b)
    else if m.version then Version.compareNames a b
    else compareBytes (plain a) (plain b)
  if m.reversed then order.swap else order

-- A field with the blanks in front of it, where blanks end fields.
def blankFields : Nat → Bytes → List Bytes
  | 0, _ => []
  | _, [] => []
  | fuel + 1, line =>
      let gap := line.takeWhile isBlankByte
      let text := (line.drop gap.length).takeWhile fun b => !isBlankByte b
      (gap ++ text) :: blankFields fuel (line.drop (gap.length + text.length))

-- The part of a line that a key names.
def Key.of (k : Key) (separator : Option UInt8) (line : Bytes) : Bytes :=
  let fields := match separator with
    | some s => splitAt s line
    | none => blankFields (line.length + 1) line
  let width := if separator.isSome then 1 else 0
  let offset (count : Nat) : Nat :=
    (fields.take count).foldl (fun n field => n + field.length + width) 0
  let behindBlanks (skips : Bool) (place : Nat) : Nat :=
    if skips then place + ((line.drop place).takeWhile isBlankByte).length else place
  let start := behindBlanks k.manner.skipsAtStart (offset (k.firstField - 1)) + (k.firstByte - 1)
  let stop := match k.lastField with
    | none => line.length
    | some last =>
        if k.lastByte = 0 then offset last - width
        else behindBlanks k.manner.skipsAtEnd (offset (last - 1)) + k.lastByte
  (line.take stop).drop start

-- What is wrong with the text of a key.
inductive Key.Fault where
  | notCount (what rest : String)
  | zeroField
  | zeroByte
  | stray

def Key.Fault.message (text : String) : Key.Fault → String
  | notCount what rest => what ++ ": invalid count at start of " ++ quoted rest
  | zeroField => "field number is zero: invalid field specification " ++ quoted text
  | zeroByte => "character offset is zero: invalid field specification " ++ quoted text
  | stray => "stray character in field spec: invalid field specification " ++ quoted text

def count (what : String) (cs : List Char) : Except Key.Fault (Nat × List Char) :=
  let digits := cs.takeWhile Char.isDigit
  match (String.ofList digits).toNat? with
  | some n => .ok (n, cs.drop digits.length)
  | none => .error (.notCount what (String.ofList cs))

-- A byte's number behind a point, where there is one.
def byteNumber? (cs : List Char) : Except Key.Fault (Option Nat × List Char) :=
  match cs with
  | '.' :: rest => do
      let (n, rest) ← count "invalid number after '.'" rest
      .ok (some n, rest)
  | cs => .ok (none, cs)

-- A key as it is written. One without letters takes the manner of the call.
def keyOf (overall : Manner) (text : String) : Except Key.Fault Key := do
  let (field, rest) ← count "invalid number at field start" text.toList
  if field = 0 then .error .zeroField
  let (byte, rest) ← byteNumber? rest
  if byte = some 0 then .error .zeroByte
  let (manner, rest) := Manner.withLetters .start {} rest
  let (last, manner, rest) ← match rest with
    | ',' :: rest => do
        let (last, rest) ← count "invalid number after ','" rest
        if last = 0 then .error .zeroField
        let (lastByte, rest) ← byteNumber? rest
        let (manner, rest) := Manner.withLetters .stop manner rest
        .ok (some (last, lastByte.getD 0), manner, rest)
    | rest => .ok (none, manner, rest)
  if !rest.isEmpty then .error .stray
  .ok { firstField := field, firstByte := byte.getD 1
        lastField := last.map Prod.fst, lastByte := (last.map Prod.snd).getD 0
        manner := if manner = {} then overall else manner }

-- The order of two lines: by the keys in turn, and then by all bytes, unless
-- it stops at the keys.
def compareLines (keys : List Key) (separator : Option UInt8) (overall : Manner)
    (stops : Bool) (a b : Bytes) : Ordering :=
  let byKeys := keys.foldl (fun order key => order.then
    (compareIn key.manner (key.of separator a) (key.of separator b))) .eq
  let byBytes := if overall.reversed then (compareBytes a b).swap else compareBytes a b
  if keys.isEmpty then byBytes else if stops then byKeys else byKeys.then byBytes

-- The lines without those that equal the one before them.
def distinct (order : Bytes → Bytes → Ordering) : List Bytes → List Bytes
  | [] => []
  | line :: rest =>
      (rest.foldl (fun (state : Bytes × List Bytes) next =>
        if order state.1 next = .eq then state else (next, next :: state.2))
        (line, [line])).2.reverse

-- The first line that comes before the one in front of it, and its number.
def disorder? (order : Bytes → Bytes → Ordering) (strict : Bool) :
    Nat → List Bytes → Option (Nat × Bytes)
  | n, a :: b :: rest =>
      let o := order a b
      if o = .gt || strict && o = .eq then some (n + 1, b)
      else disorder? order strict (n + 1) (b :: rest)
  | _, _ => none

end Ranking

end Conformance.Tool
