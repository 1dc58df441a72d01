import Conformance.Shell.Pattern
import Conformance.Tool.Lines

-- Programs that give bytes for bytes.
namespace Conformance.Tool

open Machine (Act)
open Text (Bytes)

namespace Translate

-- A byte of a set's text, and whether a backslash took its meaning away.
structure Sign where
  byte : UInt8
  escaped : Bool
deriving DecidableEq, Repr

def Sign.means (s : Sign) (b : UInt8) : Bool :=
  s.byte = b && !s.escaped

inductive Warning where
  | ambiguous (digits : List UInt8)
  | openBackslash
deriving DecidableEq, Repr

def Warning.message : Warning → String
  | ambiguous digits =>
      let digit (i : Nat) : String := Text.lossy [digits.getD i 48]
      "warning: the ambiguous octal escape \\" ++ digit 0 ++ digit 1 ++ digit 2 ++
        " is being\n\tinterpreted as the 2-byte sequence \\0" ++ digit 0 ++ digit 1 ++ ", " ++
        digit 2
  | openBackslash => "warning: an unescaped backslash at end of string is not portable"

-- The signs of a text, in which a backslash begins an octal number or a name.
def signs : Nat → Bytes → List Sign × List Warning
  | 0, _ => ([], [])
  | _, [] => ([], [])
  | _, [92] => ([⟨92, false⟩], [.openBackslash])
  | fuel + 1, 92 :: c :: more =>
      let digits := ((c :: more).take 3).takeWhile fun b => 48 ≤ b && b ≤ 55
      let value (ds : List UInt8) : Nat :=
        ds.foldl (fun n b => 8 * n + (b.toNat - 48)) 0
      let isAmbiguous := value digits > 255
      let used := if isAmbiguous then digits.take 2 else digits
      let (byte, rest) :=
        if !digits.isEmpty then ((value used).toUInt8, (c :: more).drop used.length)
        else if c = 101 then (c, more)
        else ((Shell.Escape.control? (Char.ofNat c.toNat)).getD c, more)
      let (others, warnings) := signs fuel rest
      (⟨byte, true⟩ :: others,
        if isAmbiguous then .ambiguous digits :: warnings else warnings)
  | fuel + 1, b :: rest =>
      let (others, warnings) := signs fuel rest
      (⟨b, false⟩ :: others, warnings)

-- A part of a set.
inductive Part where
  | one (b : UInt8)
  | range (first last : UInt8)
  | named (name : String) (bs : List UInt8)
  | alike (b : UInt8)
  -- a byte so many times, or as often as it takes
  | times (b : UInt8) (count : Option Nat)
deriving DecidableEq, Repr

inductive Fault where
  | noClass (name : String)
  | emptyClass
  | emptyAlike
  | notOneAlike (text : String)
  | badCount (text : String)
  | reversed (first last : UInt8)
  | fillingInFirst
  | manyFillings
  | idleFilling
  | alikeInSecond
  | classInSecond
  | misaligned
  | endsWithClass
  | emptySecond
  | notHomogeneous

def Fault.message : Fault → String
  | noClass name => "invalid character class " ++ quoted name
  | emptyClass => "missing character class name '[::]'"
  | emptyAlike => "missing equivalence class character '[==]'"
  | notOneAlike text => text ++ ": equivalence class operand must be a single character"
  | badCount text => "invalid repeat count " ++ quoted text ++ " in [c*n] construct"
  | reversed first last => "range-endpoints of " ++ quoted (Text.lossy [first, 45, last]) ++
      " are in reverse collating sequence order"
  | fillingInFirst => "the [c*] repeat construct may not appear in string1"
  | manyFillings => "only one [c*] repeat construct may appear in string2"
  | idleFilling => "the [c*] construct may appear in string2 only when translating"
  | alikeInSecond => "[=c=] expressions may not appear in string2 when translating"
  | classInSecond => "when translating, the only character classes that may appear in\n" ++
      "string2 are 'upper' and 'lower'"
  | misaligned => "misaligned [:upper:] and/or [:lower:] construct"
  | endsWithClass => "when translating with string1 longer than string2,\n" ++
      "the latter string must not end with a character class"
  | emptySecond => "when not truncating set1, string2 must be non-empty"
  | notHomogeneous => "when translating with complemented character classes,\n" ++
      "string2 must map all characters in the domain to one"

-- The bytes of a named class.
def classOf? (name : String) : Option (List UInt8) :=
  match Shell.Glob.classRanges name with
  | [] => none
  | ranges => some ((List.range 128).filter (fun n =>
      ranges.any fun r => r.1.toNat ≤ n && n ≤ r.2.toNat) |>.map Nat.toUInt8)

-- The signs up to a mark and a closing bracket, and those behind.
def upToMark (mark : UInt8) : List Sign → Option (List Sign × List Sign)
  | [] => none
  | s :: rest =>
      if s.means mark && rest.head?.any fun next => next.means 93 then some ([], rest.drop 1)
      else (upToMark mark rest).map fun r => (s :: r.1, r.2)

def bytesOf (ss : List Sign) : Bytes :=
  ss.map Sign.byte

-- A byte with a count, behind an opening bracket.
def repeated? (ss : List Sign) : Except Fault (Option (Part × List Sign)) :=
  match ss with
  | c :: star :: rest =>
      let plain := rest.takeWhile fun s => !s.escaped && s.byte ≠ 93
      match star.means 42, rest.drop plain.length with
      | true, close :: behind =>
          if !close.means 93 then .ok none
          else
            let digits := bytesOf plain
            let isOctal := digits.head? = some 48
            let isNumber := digits.all fun d => 48 ≤ d && d ≤ (if isOctal then 55 else 57)
            let base := if isOctal then 8 else 10
            let n := digits.foldl (fun (n : Nat) d => base * n + (d.toNat - 48)) 0
            if !isNumber then .error (.badCount (Text.lossy digits))
            else .ok (some (.times c.byte (if n = 0 then none else some n), behind))
      | _, _ => .ok none
  | _ => .ok none

-- A part in brackets, behind the opening one.
def bracketed? (ss : List Sign) : Except Fault (Option (Part × List Sign)) :=
  match ss with
  | kind :: rest =>
      if kind.means 58 || kind.means 61 then
        match upToMark kind.byte rest with
        | none => repeated? ss
        | some (inner, behind) =>
            let name := Text.lossy (bytesOf inner)
            let orRepeated (f : Fault) : Except Fault (Option (Part × List Sign)) := do
              match ← repeated? ss with
              | some found => .ok (some found)
              | none => .error f
            if kind.byte = 58 then
              if inner.isEmpty then .error .emptyClass
              else match classOf? name with
                | some bs => .ok (some (.named name bs, behind))
                | none => orRepeated (.noClass name)
            else match inner with
              | [] => .error .emptyAlike
              | [c] => .ok (some (.alike c.byte, behind))
              | _ => orRepeated (.notOneAlike name)
      else repeated? ss
  | [] => .ok none

def parts : Nat → List Sign → Except Fault (List Part)
  | 0, _ => .ok []
  | fuel + 1, a :: dash :: b :: rest => do
      let found ← if a.means 91 then bracketed? (dash :: b :: rest) else .ok none
      match found with
      | some (part, rest) => do
          let more ← parts fuel rest
          .ok (part :: more)
      | none =>
          if dash.means 45 then
            if b.byte < a.byte then .error (.reversed a.byte b.byte)
            else do
              let more ← parts fuel rest
              .ok (.range a.byte b.byte :: more)
          else do
            let more ← parts fuel (dash :: b :: rest)
            .ok (.one a.byte :: more)
  | _, few => .ok (few.map fun s => .one s.byte)

-- A byte of a set. Case classes stand for letters of one case, and what is
-- behind their first letter does not begin a part.
structure Cell where
  byte : UInt8
  isUpper : Option Bool := none
  begins : Bool := true

def Part.cells : Part → List Cell
  | one b => [{ byte := b }]
  | alike b => [{ byte := b }]
  | range first last => (List.range (last.toNat + 1 - first.toNat)).zipIdx.map fun entry =>
      { byte := (first.toNat + entry.1).toUInt8, begins := entry.2 = 0 }
  | named name bs =>
      let kind := if name = "upper" then some true else if name = "lower" then some false else none
      bs.zipIdx.map fun entry => { byte := entry.1, isUpper := kind, begins := entry.2 = 0 }
  | times b count => (List.range (count.getD 0)).map fun i => { byte := b, begins := i = 0 }

def isFilling (p : Part) : Bool :=
  match p with
  | .times _ none => true
  | _ => false

def isNamed (p : Part) : Bool :=
  match p with
  | .named _ _ => true
  | _ => false

def cells (ps : List Part) : List Cell :=
  ps.flatMap Part.cells

-- The parts, in which a filling brings them up to some length.
def filled (size : Nat) (ps : List Part) : List Part :=
  let missing := size - (cells ps).length
  ps.map fun p => match p with
    | .times b none => .times b (some missing)
    | p => p

def complement (bs : List UInt8) : List UInt8 :=
  ((List.range 256).map Nat.toUInt8).filter fun b => !bs.contains b

def sameCase (cs : List Cell) : List Cell :=
  cs.dropWhile fun c => !c.begins

-- The letters of one case with those of the other one.
def casePairs (fromUpper toUpper : Bool) : List (UInt8 × UInt8) :=
  if fromUpper = toUpper then []
  else (List.range 26).map fun i =>
    let upper := (65 + i).toUInt8
    let lower := (97 + i).toUInt8
    if fromUpper then (upper, lower) else (lower, upper)

-- The bytes of two sets side by side, where case classes of the second set
-- stand beside those of the first one. What is left of the first set is told.
def pairs : Nat → List Cell → List Cell → Except Fault (List (UInt8 × UInt8) × List Cell)
  | 0, _, _ => .ok ([], [])
  | _, first, [] => .ok ([], first)
  | _, [], c :: _ => if c.isUpper.isSome then .error .misaligned else .ok ([], [])
  | fuel + 1, a :: as, b :: bs =>
      match b.isUpper with
      | none => do
          let (others, left) ← pairs fuel as bs
          .ok ((a.byte, b.byte) :: others, left)
      | some toUpper =>
          match a.isUpper with
          | some fromUpper =>
              if !a.begins then .error .misaligned
              else do
                let (others, left) ← pairs fuel (sameCase as) (sameCase bs)
                .ok (casePairs fromUpper toUpper ++ others, left)
          | none => .error .misaligned

-- What is asked for.
structure Plan where
  first : List Part
  second : List Part
  complements : Bool
  truncates : Bool

def firstBytes (p : Plan) : List UInt8 :=
  let bs := (cells p.first).map Cell.byte
  if p.complements then complement bs else bs

-- What becomes of bytes, the last pair of a byte being the one that counts.
def translation (p : Plan) : Except Fault (List (UInt8 × UInt8)) := do
  let source := firstBytes p
  if p.first.any isFilling then .error .fillingInFirst
  if (p.second.filter isFilling).length > 1 then .error .manyFillings
  let second := filled source.length p.second
  if second.any fun s => match s with | .alike _ => true | _ => false then .error .alikeInSecond
  if second.any fun s => match s with
      | .named name _ => name ≠ "upper" && name ≠ "lower"
      | _ => false then .error .classInSecond
  let sourceCells := if p.complements then source.map fun b => { byte := b } else cells p.first
  let targetCells := cells second
  -- a complement knows no case
  let targetCells := if p.complements then targetCells.map fun c => { c with isUpper := none }
    else targetCells
  let (known, left) ← pairs (sourceCells.length + 1) sourceCells targetCells
  let ends ← if left.isEmpty || p.truncates then .ok []
    else if targetCells.isEmpty then .error .emptySecond
    else match second.getLast? with
      | some (.named _ _) => .error .endsWithClass
      | some (.times b _) => .ok (left.map fun c => (c.byte, b))
      | _ =>
          let last := (targetCells.getLast?.map Cell.byte).getD 0
          .ok (left.map fun c => (c.byte, last))
  let all := known ++ ends
  let targets := all.map Prod.snd
  if p.complements && p.first.any isNamed &&
      !(targets.length = source.length && targets.all fun b => some b = targets.head?) then
    .error .notHomogeneous
  .ok all

-- What is wrong with sets between which nothing is translated.
def fault? (p : Plan) : Option Fault :=
  if p.first.any isFilling then some .fillingInFirst
  else if (p.second.filter isFilling).length > 1 then some .manyFillings
  else if p.second.any isFilling then some .idleFilling
  else none

-- The data of one block without repeated bytes of a set, latest first, and
-- the last byte.
def squeeze (isIn : UInt8 → Bool) (last : Option UInt8) (data : Bytes) : Bytes × Option UInt8 :=
  let (out, last) := data.foldl (fun (state : Bytes × Option UInt8) b =>
    if state.2 = some b && isIn b then state else (b :: state.1, some b)) ([], last)
  (out.reverse, last)

def run (change : Bytes → Bytes) (isSqueezed : UInt8 → Bool) :
    Nat → Option UInt8 → Task Nat
  | 0, _ => pure 0
  | fuel + 1, last => do
      match ← Task.act (Act.read 0 Act.blockSize) with
      | .error e => Task.fail ("read error: " ++ e.reason) 1
      | .ok [] => pure 0
      | .ok data => do
          let (out, last) := squeeze isSqueezed last (change data)
          Task.put out
          run change isSqueezed fuel last

-- The parts of a set as it is written.
def setOf (text : String) : Task (List Part) := do
  let (ss, warnings) := signs (text.utf8ByteSize + 1) (Text.bytesOf text)
  warnings.forM fun w => Task.warn w.message
  match parts (ss.length + 1) ss with
  | .ok ps => pure ps
  | .error f => Task.fail f.message 1

-- A call with too few or too many sets, with a hint where there is one.
def miscounted (what hint : String) : Task Nat := do
  Task.warn what
  let call ← read
  discard (Task.act (Act.write 2 (Text.bytesOf ((if hint = "" then "" else hint ++ "\n") ++
    "Try '" ++ call.name ++ " --help' for more information.\n"))))
  pure 1

-- For each byte, whether it is one of some.
def tableOf (bs : List UInt8) : Array Bool :=
  ((List.range 256).map fun n => bs.contains n.toUInt8).toArray

end Translate

def tr : Task Nat := do
  let given ← Task.arguments {
    flags := ['c', 'C', 'd', 's', 't'], mixed := false
    long := [("complement", 'c'), ("delete", 'd'), ("squeeze-repeats", 's'),
      ("truncate-set1", 't')] }
  let deletes := given.has 'd'
  let squeezes := given.has 's'
  let least := if deletes = squeezes then 2 else 1
  let most := if deletes && !squeezes then 1 else 2
  let sets := given.operands
  if sets.isEmpty then Task.misuse "missing operand" 1
  else if sets.length < least then
    Translate.miscounted ("missing operand after " ++ quoted (sets.headD ""))
      (if deletes then "Two strings must be given when both deleting and squeezing repeats."
        else "Two strings must be given when translating.")
  else if sets.length > most then
    Translate.miscounted ("extra operand " ++ quoted (sets.getD most ""))
      (if most = 1 && sets.length = 2 then
        "Only one string may be given when deleting without squeezing repeats."
      else "")
  else do
    let first ← Translate.setOf (sets.headD "")
    let second ← match sets.drop 1 with
      | text :: _ => Translate.setOf text
      | [] => pure []
    let plan : Translate.Plan := {
      first := first, second := second, complements := given.has 'c' || given.has 'C'
      truncates := given.has 't' }
    let translates := !deletes && sets.length = 2
    let changes ← if translates then
        match Translate.translation plan with
        | .ok changes => pure changes
        | .error f => Task.fail f.message 1
      else match Translate.fault? plan with
        | some f => Task.fail f.message 1
        | none => pure []
    let images := changes.foldl (fun (all : Array UInt8) change =>
      all.setIfInBounds change.1.toNat change.2) ((List.range 256).map Nat.toUInt8).toArray
    let source := Translate.firstBytes plan
    let isFirst := Translate.tableOf source
    let isSecond := Translate.tableOf
      ((Translate.cells (Translate.filled source.length second)).map fun c => c.byte)
    let change (data : Bytes) : Bytes :=
      if deletes then data.filter fun b => !isFirst.getD b.toNat false
      else if translates then data.map fun b => images.getD b.toNat b
      else data
    let isSqueezed (b : UInt8) : Bool := squeezes &&
      (if sets.length = 2 then isSecond else isFirst).getD b.toNat false
    Translate.run change isSqueezed Act.patience none

end Conformance.Tool
