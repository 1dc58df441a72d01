import Conformance.Tool.Lines

-- Bytes written as numbers and signs.
namespace Conformance.Tool

open Text (Bytes)

namespace Dump

-- A form in which the bytes of a line are written.
inductive Kind where
  | named
  | signs
  | signed
  | octal
  | unsigned
  | hex
deriving DecidableEq, Repr

structure Form where
  kind : Kind
  size : Nat := 1
  -- whether the printable signs are shown behind the line
  shows : Bool := false
deriving DecidableEq, Repr

-- How wide a number of so many bytes can be.
def Form.width (f : Form) : Nat :=
  let bySize (one two four eight : Nat) : Nat :=
    if f.size = 1 then one else if f.size = 2 then two else if f.size = 4 then four else eight
  match f.kind with
  | .named | .signs => 3
  | .signed => bySize 4 6 11 20
  | .octal => bySize 3 6 11 22
  | .unsigned => bySize 3 5 10 20
  | .hex => bySize 2 4 8 16

def inBase (base width : Nat) (n : Nat) : String :=
  let digits := String.ofList (Nat.toDigits base n)
  String.ofList (List.replicate (width - digits.length) '0') ++ digits

def padded (width : Nat) (s : String) : String :=
  String.ofList (List.replicate (width - s.length) ' ') ++ s

def names : List String :=
  ["nul", "soh", "stx", "etx", "eot", "enq", "ack", "bel", "bs", "ht", "nl", "vt", "ff", "cr",
    "so", "si", "dle", "dc1", "dc2", "dc3", "dc4", "nak", "syn", "etb", "can", "em", "sub", "esc",
    "fs", "gs", "rs", "us", "sp"]

def nameOf (b : UInt8) : String :=
  let n := b.toNat % 128
  if n = 127 then "del" else names.getD n (String.ofList [Char.ofNat n])

def signOf (b : UInt8) : String :=
  let escapes : List (UInt8 × String) := [(0, "\\0"), (7, "\\a"), (8, "\\b"), (9, "\\t"),
    (10, "\\n"), (11, "\\v"), (12, "\\f"), (13, "\\r")]
  match escapes.find? fun entry => entry.1 = b with
  | some (_, s) => s
  | none => if 32 ≤ b && b < 127 then String.ofList [Char.ofNat b.toNat] else inBase 8 3 b.toNat

-- The number that some bytes are, the lowest one first.
def value (big : Bool) (bytes : Bytes) : Nat :=
  (if big then bytes else bytes.reverse).foldl (fun n b => 256 * n + b.toNat) 0

def Form.text (f : Form) (big : Bool) (bytes : Bytes) : String :=
  let filled := bytes ++ List.replicate (f.size - bytes.length) 0
  let n := value big filled
  let range := Nat.pow 256 f.size
  match f.kind with
  | .named => nameOf (filled.headD 0)
  | .signs => signOf (filled.headD 0)
  | .signed => toString (if 2 * n < range then (n : Int) else (n : Int) - range)
  | .octal => inBase 8 f.width n
  | .unsigned => toString n
  | .hex => inBase 16 f.width n

-- What the call asks for.
structure Plan where
  forms : List Form
  perLine : Nat
  radix : Char
  all : Bool
  big : Bool

-- How wide a line of a form is.
def Form.lineWidth (f : Form) (perLine : Nat) : Nat :=
  perLine / f.size * (f.width + 1)

-- The fields of a line, which are set as wide apart as those of the widest
-- form.
def Form.line (p : Plan) (f : Form) (bytes : Bytes) : String :=
  let widest := (p.forms.map (·.lineWidth p.perLine)).foldl max 0
  let fields := p.perLine / f.size
  let extra := widest - f.lineWidth p.perLine
  let gap (i : Nat) : Nat := extra * (fields - i) / fields - extra * (fields - i - 1) / fields
  let field (i : Nat) : String :=
    padded (f.width + 1 + gap i) (f.text p.big ((bytes.drop (i * f.size)).take f.size))
  let count := (bytes.length + f.size - 1) / f.size
  let written := String.join ((List.range count).map field)
  let visible := bytes.map fun b => if 32 ≤ b && b < 127 then b else 46
  if f.shows then
    written ++ String.ofList (List.replicate (widest - written.length) ' ') ++ "  >" ++
      Text.lossy visible ++ "<"
  else written

def address (p : Plan) (n : Nat) : String :=
  match p.radix with
  | 'n' => ""
  | 'd' => inBase 10 7 n
  | 'x' => inBase 16 6 n
  | _ => inBase 8 7 n

def lines (p : Plan) :
    Nat → Bytes → Nat → Option Bytes → List String → List String
  | 0, _, _, _, done => done.reverse
  | fuel + 1, data, place, last, done =>
      if data.isEmpty then done.reverse
      else
        let now := data.take p.perLine
        let front := address p place
        let text := p.forms.mapIdx fun i form =>
          (if i = 0 then front else padded front.length "") ++ form.line p now ++ "\n"
        let same := !p.all && last = some now && now.length = p.perLine
        let done := if same then (if done.head? = some "*\n" then done else "*\n" :: done)
          else String.join text :: done
        lines p fuel (data.drop p.perLine) (place + p.perLine) (some now) done

-- The size that a digit or a letter behind a kind means, and what follows.
def sizeOf (letters : List (Char × Nat)) (usual : Nat) (cs : List Char) :
    Except Nat (Nat × List Char) :=
  match cs with
  | [] => .ok (usual, [])
  | c :: rest =>
      match letters.find? fun entry => entry.1 = c with
      | some entry => .ok (entry.2, rest)
      | none =>
          let digits := cs.takeWhile Char.isDigit
          match (String.ofList digits).toNat? with
          | none => .ok (usual, cs)
          | some n => if [1, 2, 4, 8].contains n then .ok (n, cs.drop digits.length) else .error n

-- The forms of a text.
def forms (whole : String) : Nat → List Char → Except String (List Form)
  | 0, _ => .ok []
  | _, [] => .ok []
  | fuel + 1, c :: rest => do
      let integers := [('C', 1), ('S', 2), ('I', 4), ('L', 8)]
      let kinds : List (Char × Kind) := [('d', .signed), ('o', .octal), ('u', .unsigned),
        ('x', .hex)]
      let (form, rest) : Form × List Char ← match kinds.find? fun entry => entry.1 = c with
        | some (_, kind) =>
            match sizeOf integers 4 rest with
            | .ok (size, rest) => .ok ({ kind := kind, size := size }, rest)
            | .error n => .error ("invalid type string " ++ quoted whole ++
                ";\nthis system doesn't provide a " ++ toString n ++ "-byte integral type")
        | none =>
            if c = 'a' then .ok ({ kind := .named }, rest)
            else if c = 'c' then .ok ({ kind := .signs }, rest)
            else .error ("invalid character " ++ quoted (String.ofList [c]) ++
              " in type string " ++ quoted whole)
      let shows := rest.head? = some 'z'
      let more ← forms whole fuel (if shows then rest.drop 1 else rest)
      .ok ({ form with shows := shows } :: more)

-- The forms of the letters that stand for them.
def shorthand : List (Char × String) :=
  [('a', "a"), ('b', "o1"), ('B', "o2"), ('c', "c"), ('d', "u2"), ('h', "x2"), ('i', "dI"),
    ('l', "dL"), ('o', "o2"), ('s', "d2"), ('x', "x2")]

def formsOf (given : Given) : Task (List Form) := do
  let texts := given.options.filterMap fun o =>
    if o.1 = 't' then some o.2
    else (shorthand.find? fun entry => entry.1 = o.1).map Prod.snd
  let found ← texts.mapM fun text =>
    match forms text (text.length + 1) text.toList with
    | .ok found => pure found
    | .error fault => Task.fail fault 1
  pure (if found.flatten.isEmpty then [{ kind := .octal, size := 2 }] else found.flatten)

def number (given : Given) (letter : Char) : Task (Option Nat) :=
  match given.value? letter with
  | none => pure none
  | some text =>
      match sizeOf? text with
      | some n => pure (some n)
      | none => Task.fail ("invalid -" ++ String.ofList [letter] ++ " argument " ++ quoted text) 1

end Dump

def od : Task Nat := do
  let given ← Task.arguments {
    flags := (Dump.shorthand.map Prod.fst) ++ ['v'], valued := ['A', 't', 'N', 'j', 'E']
    attached := ['w']
    long := [("address-radix", 'A'), ("endian", 'E'), ("format", 't'), ("read-bytes", 'N'),
      ("skip-bytes", 'j'), ("width", 'w'), ("output-duplicates", 'v')] }
  let radix ← match given.value? 'A' with
    | none => pure 'o'
    | some text =>
        match text.toList.head? with
        | some c =>
            if ['d', 'o', 'x', 'n'].contains c then pure c
            else Task.fail ("invalid output address radix " ++ quoted (String.ofList [c]) ++
              "; it must be one character from [doxn]") 1
        | none => Task.fail ("invalid output address radix " ++ quoted "" ++
            "; it must be one character from [doxn]") 1
  let forms ← Dump.formsOf given
  let skipped := (← Dump.number given 'j').getD 0
  let limit ← Dump.number given 'N'
  let asked ← match given.value? 'w' with
    | none => pure 16
    | some "" => pure 32
    | some _ => do pure ((← Dump.number given 'w').getD 16)
  let unit := (forms.map Dump.Form.size).foldl max 1
  let perLine ← if asked ≠ 0 && asked % unit = 0 then pure asked
    else do
      Task.warn ("warning: invalid width " ++ toString asked ++ "; using " ++ toString unit ++
        " instead")
      pure unit
  let (found, status) ← inputs given.operands plainly 1
  let data := (found.map Prod.snd).flatten
  if found.isEmpty then pure status
  else if data.length < skipped then Task.fail "cannot skip past end of combined input" 1
  else do
    let data := data.drop skipped
    let data := limit.elim data data.take
    let plan : Dump.Plan := {
      forms := forms, perLine := perLine, radix := radix, all := given.has 'v'
      big := given.value? 'E' = some "big" }
    let lines := Dump.lines plan (data.length + 1) data skipped none []
    let final := Dump.address plan (skipped + data.length)
    Task.say (String.join lines ++ if final = "" then "" else final ++ "\n")
    pure status

end Conformance.Tool
