import Conformance.Decimal.Places
import Conformance.Shell.Arithmetic
import Conformance.Text.Utf8

namespace Conformance.Shell

open Text (Bytes)

-- The shell and the program of the same name write formats in two ways.
inductive Dialect where
  | shell
  | program
deriving DecidableEq, Repr

namespace Escape

def isOctal (c : Char) : Bool :=
  '0' ≤ c && c ≤ '7'

def octalValue (digits : List Char) : UInt8 :=
  (digits.foldl (fun (n : Nat) (c : Char) => 8 * n + (c.toNat - 48)) 0).toUInt8

-- Up to three octal digits at the front of a text.
def octal (cs : List Char) : List Char :=
  (cs.take 3).takeWhile isOctal

def control? (c : Char) : Option UInt8 :=
  match c with
  | 'a' => some 7
  | 'b' => some 8
  | 'e' => some 27
  | 'f' => some 12
  | 'n' => some 10
  | 'r' => some 13
  | 't' => some 9
  | 'v' => some 11
  | '\\' => some 92
  | _ => none

-- What an escape stands for behind its backslash, and what follows it. An
-- escape that means nothing leaves its backslash.
def read (dialect : Dialect) (cs : List Char) : Bytes × List Char :=
  match cs with
  | [] => ([92], [])
  | c :: rest =>
      match control? c, octal cs with
      | some b, _ => ([b], rest)
      | none, [] =>
          if dialect = .program then
            if c = '"' then ([34], rest)
            else if c = 'x' then
              let digits := (rest.take 2).takeWhile fun c => Arithmetic.digitValue c < 16
              if digits.isEmpty then ([92], cs)
              else ([(Arithmetic.digits 16 digits).1.toUInt8], rest.drop digits.length)
            else ([92], cs)
          else ([92], cs)
      | none, digits => ([octalValue digits], cs.drop digits.length)

-- A text with its escapes carried out. Here an octal escape may begin with one
-- zero more. Whether the text says that all output ends with it is the second
-- part.
def carriedOut (dialect : Dialect) : Nat → List Char → Bytes × Bool
  | 0, _ => ([], false)
  | _, [] => ([], false)
  | fuel + 1, '\\' :: cs =>
      match cs with
      | 'c' :: _ => ([], true)
      | _ =>
          let inner := match cs with
            | '0' :: d :: rest => if isOctal d then d :: rest else cs
            | _ => cs
          let (bytes, rest) := read dialect inner
          let (more, ends) := carriedOut dialect fuel rest
          (bytes ++ more, ends)
  | fuel + 1, c :: rest =>
      let (more, ends) := carriedOut dialect fuel rest
      (String.utf8EncodeChar c ++ more, ends)

end Escape

def escapesCarriedOut (dialect : Dialect) (s : String) : Bytes × Bool :=
  Escape.carriedOut dialect (s.length + 1) s.toList

namespace Format

-- A directive of a format up to its letter.
structure Directive where
  flags : List Char
  width : Nat := 0
  places : Option Nat := none
  letter : Char

inductive Fault where
  | notNumber (arg : String)
  | notWhollyNumber (arg : String)
  | outOfRange (arg : String)
  | badDirective (text : String)
  | noLetter
deriving DecidableEq, Repr

def Fault.stops : Fault → Bool
  | badDirective _ => true
  | noLetter => true
  | _ => false

-- A text at its place in a field.
def padded (d : Directive) (body : Bytes) : Bytes :=
  let gap := List.replicate (d.width - body.length) (32 : UInt8)
  if d.flags.contains '-' then body ++ gap else gap ++ body

-- A sign and digits at their place in a field. Zeros stand behind the sign.
def paddedNumber (d : Directive) (zeros : Bool) (sign digits : String) : Bytes :=
  let count := d.width - sign.length - digits.length
  if zeros && d.flags.contains '0' && !d.flags.contains '-' then
    Text.bytesOf (sign ++ String.ofList (List.replicate count '0') ++ digits)
  else padded d (Text.bytesOf (sign ++ digits))

def signOf (d : Directive) (negative : Bool) : String :=
  if negative then "-"
  else if d.flags.contains '+' then "+"
  else if d.flags.contains ' ' then " "
  else ""

-- A number argument, and what is wrong with it.
def number (arg : String) : Int × List Fault :=
  match arg.toList with
  | [] => (0, [])
  | q :: rest =>
      if q = '\'' ∨ q = '"' then
        match rest with
        | c :: _ => ((c.toNat : Int), [])
        | [] => (0, [.notNumber arg])
      else
        let cs := arg.toList.dropWhile Char.isWhitespace
        let (negative, body) := match cs with
          | '-' :: rest => (true, rest)
          | '+' :: rest => (false, rest)
          | cs => (false, cs)
        match body with
        | [] => (0, [.notNumber arg])
        | c :: _ =>
            if !c.isDigit then (0, [.notNumber arg])
            else
              let (n, left) := Arithmetic.unsigned body
              let n : Int := if negative then -n else n
              (n, if left.isEmpty then [] else [.notWhollyNumber arg])

def signedText (d : Directive) (n : Int) : Bytes :=
  let n := max (-Arithmetic.largest - 1) (min Arithmetic.largest n)
  let digits := toString n.natAbs
  let digits := String.ofList (List.replicate (d.places.getD 1 - digits.length) '0') ++ digits
  paddedNumber d d.places.isNone (signOf d (n < 0)) digits

def baseOf (letter : Char) : Nat :=
  if letter = 'o' then 8 else if letter = 'x' ∨ letter = 'X' then 16 else 10

def largestUnsigned : Nat := 18446744073709551615

def unsignedText (d : Directive) (n : Int) : Bytes :=
  let n := if n.natAbs ≤ largestUnsigned then (n % (largestUnsigned + 1)).toNat
    else largestUnsigned
  let digits := Nat.toDigits (baseOf d.letter) n
  let digits := if d.letter = 'X' then digits.map Char.toUpper else digits
  let digits := List.replicate (d.places.getD 1 - digits.length) '0' ++ digits
  let sign := if d.flags.contains '#' && n ≠ 0 then
      match d.letter with
      | 'o' => "0"
      | 'x' => "0x"
      | 'X' => "0X"
      | _ => ""
    else ""
  paddedNumber d d.places.isNone sign (String.ofList digits)

-- How many binary digits a number has in which a dialect counts.
def precision : Dialect → Nat
  | .shell => 53
  | .program => 64

def pointText (dialect : Dialect) (d : Directive) (arg : String) : Bytes × List Fault :=
  let cs := arg.toList.dropWhile Char.isWhitespace
  let (negative, body) := match cs with
    | '-' :: rest => (true, rest)
    | '+' :: rest => (false, rest)
    | cs => (false, cs)
  let (value, faults) : Decimal.Ratio × List Fault := match Decimal.numeral? body with
    | none => (⟨0, 1⟩, if arg = "" then [] else [.notNumber arg])
    | some (r, _, rest) => (r, if rest.isEmpty then [] else [.notWhollyNumber arg])
  let value := value.toBinary (precision dialect)
  let places := d.places.getD 6
  let text := match d.letter.toLower with
    | 'f' => value.fixedText places
    | 'e' => value.scientificText places
    | _ => value.generalText places (d.flags.contains '#')
  let text := if d.letter.isUpper then text.map Char.toUpper else text
  (paddedNumber d true (signOf d negative) text, faults)

-- What a directive makes of an argument, which may be missing, and whether
-- all output ends with it.
def directiveText (dialect : Dialect) (d : Directive) (arg : Option String) :
    Bytes × List Fault × Bool :=
  let text := arg.getD ""
  let cut (bytes : Bytes) : Bytes := match d.places with
    | some n => bytes.take n
    | none => bytes
  match d.letter with
  | 's' => (padded d (cut (Text.bytesOf text)), [], false)
  | 'b' =>
      let (bytes, ends) := escapesCarriedOut dialect text
      (padded d (cut bytes), [], ends)
  | 'c' => (padded d (((Text.bytesOf text).take 1 ++ [0]).take 1), [], false)
  | c =>
      if c ∈ ['d', 'i'] then
        let (n, faults) := number text
        let fits := n ≤ Arithmetic.largest && -Arithmetic.largest - 1 ≤ n
        (signedText d n, if fits then faults else [.outOfRange text], false)
      else if c ∈ ['o', 'u', 'x', 'X'] then
        let (n, faults) := number text
        let fits := n.natAbs ≤ largestUnsigned
        (unsignedText d n, if fits then faults else [.outOfRange text], false)
      else if c ∈ ['f', 'F', 'e', 'E', 'g', 'G'] then
        let (bytes, faults) := pointText dialect d text
        (bytes, faults, false)
      else ([], [.badDirective (String.ofList ('%' :: d.flags ++ [c]))], true)

-- A count in a directive: digits, or a star for an argument.
def count (cs : List Char) (args : List String) : Option Int × List Char × List String :=
  match cs with
  | '*' :: rest => (some (number (args.headD "")).1, rest, args.drop 1)
  | cs =>
      let digits := cs.takeWhile Char.isDigit
      ((String.ofList digits).toNat?.map Int.ofNat, cs.drop digits.length, args)

-- What a pass over a format has made: its output, what was wrong, the
-- arguments that are left, and whether all output ends here.
structure Pass where
  bytes : List Bytes := []
  faults : List Fault := []
  args : List String
  ends : Bool := false

def isFlag (c : Char) : Bool :=
  c ∈ ['-', '+', ' ', '#', '0']

-- One pass over a format.
def once (dialect : Dialect) : Nat → List Char → Pass → Pass
  | 0, _, p => p
  | _, [], p => p
  | fuel + 1, '\\' :: cs, p =>
      if dialect = .program ∧ cs.head? = some 'c' then { p with ends := true }
      else
        let (bytes, rest) := Escape.read dialect cs
        once dialect fuel rest { p with bytes := bytes :: p.bytes }
  | fuel + 1, '%' :: '%' :: rest, p => once dialect fuel rest { p with bytes := [37] :: p.bytes }
  | fuel + 1, '%' :: cs, p =>
      let flags := cs.takeWhile isFlag
      let (width, cs, args) := count (cs.drop flags.length) p.args
      let width := width.getD 0
      let flags := if width < 0 then '-' :: flags else flags
      let (places, cs, args) := match cs with
        | '.' :: rest =>
            let (n, cs, args) := count rest args
            (some ((n.getD 0).toNat), cs, args)
        | cs => (none, cs, args)
      match cs with
      | [] => { p with faults := .noLetter :: p.faults, ends := true }
      | letter :: rest =>
          let d : Directive := ⟨flags, width.natAbs, places, letter⟩
          let (bytes, faults, ends) := directiveText dialect d args.head?
          let p := { p with
            bytes := bytes :: p.bytes, faults := faults ++ p.faults, args := args.drop 1 }
          if ends then { p with ends := true } else once dialect fuel rest p
  | fuel + 1, c :: rest, p =>
      once dialect fuel rest { p with bytes := String.utf8EncodeChar c :: p.bytes }

-- The format is used again while it takes arguments that are left.
def passes (dialect : Dialect) (form : List Char) : Nat → Pass → Pass
  | 0, p => p
  | fuel + 1, p =>
      let q := once dialect (form.length + 1) form p
      if q.ends || q.args.isEmpty || q.args.length = p.args.length then q
      else passes dialect form fuel q

end Format

-- What a format makes of its arguments, and what was wrong with them.
def formatted (dialect : Dialect) (form : String) (args : List String) :
    Bytes × List Format.Fault :=
  let p := Format.passes dialect form.toList (args.length + 1) { args := args }
  (p.bytes.reverse.flatten, p.faults.reverse)

end Conformance.Shell
