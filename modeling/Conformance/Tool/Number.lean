import Conformance.Regex.Parser
import Conformance.Tool.Lines

-- Lines with numbers in front of them.
namespace Conformance.Tool

open Text (Bytes)

namespace Numbering

-- Which lines of a section have numbers.
inductive Style where
  | all
  | filled
  | none
  | matching (pattern : Regex)

-- How numbers stand in their field.
inductive Placing where
  | left
  | right
  | zeros
deriving DecidableEq, Repr

structure Plan where
  header : Style := .none
  body : Style := .filled
  footer : Style := .none
  sectionMark : Bytes := [92, 58]
  start : Int := 1
  step : Int := 1
  keepsOn : Bool := false
  joined : Nat := 1
  placing : Placing := .right
  width : Nat := 6
  separator : Bytes := [9]

-- How far the numbering has come.
structure State where
  style : Style
  next : Int
  blanks : Nat := 0

-- The style that a section mark stands for.
def sectionOf? (p : Plan) (line : Bytes) : Option Style :=
  let m := p.sectionMark
  if m.length < 2 then Option.none
  else if line = m ++ m ++ m then some p.header
  else if line = m ++ m then some p.body
  else if line = m then some p.footer
  else Option.none

def field (p : Plan) (n : Int) : String :=
  let digits := toString n
  let gap := String.ofList (List.replicate (p.width - digits.length) ' ')
  match p.placing with
  | .left => digits ++ gap
  | .right => gap ++ digits
  | .zeros =>
      let plain := toString n.natAbs
      let sign := if n < 0 then "-" else ""
      sign ++ String.ofList (List.replicate (p.width - sign.length - plain.length) '0') ++ plain

-- Whether a line gets a number, and how many blank lines wait for one.
def isCounted (p : Plan) (s : State) (line : Bytes) : Bool × Nat :=
  match s.style with
  | .none => (false, s.blanks)
  | .filled => (!line.isEmpty, s.blanks)
  | .matching r => ((r.find? {} line 0).isSome, s.blanks)
  | .all =>
      if p.joined ≤ 1 then (true, s.blanks)
      else if !line.isEmpty || s.blanks + 1 = p.joined then (true, 0)
      else (false, s.blanks + 1)

def line (p : Plan) (s : State) (text : Bytes) : State × Bytes :=
  match sectionOf? p text with
  | some style => ({ s with style := style, next := if p.keepsOn then s.next else p.start }, [10])
  | Option.none =>
      let (counted, blanks) := isCounted p s text
      if counted then
        ({ s with next := s.next + p.step, blanks := blanks },
          Text.bytesOf (field p s.next) ++ p.separator ++ text ++ [10])
      else
        ({ s with blanks := blanks },
          List.replicate (p.width + p.separator.length) 32 ++ text ++ [10])

def lines (p : Plan) (s : State) (texts : List Bytes) : State × Bytes :=
  let (s, out) := texts.foldl (fun (state : State × List Bytes) text =>
    let (s, out) := line p state.1 text
    (s, out :: state.2)) (s, [])
  (s, out.reverse.flatten)

def style (which text : String) : Task Style :=
  match text.toList with
  | 'a' :: _ => pure .all
  | 't' :: _ => pure .filled
  | 'n' :: _ => pure .none
  | 'p' :: pattern =>
      let pattern := Text.bytesOf (String.ofList pattern)
      match Regex.parse { extended := false, strict := false } pattern with
      | .ok parsed => pure (.matching parsed.regex)
      | .error fault => Task.fail fault.message 1
  | _ => Task.misuse ("invalid " ++ which ++ " numbering style: " ++ quoted text) 1

def integer (what text : String) : Task Int :=
  match text.toInt? with
  | some n => pure n
  | Option.none => Task.fail ("invalid " ++ what ++ ": " ++ quoted text) 1

def natural (what text : String) (least : Nat) : Task Nat := do
  let n ← integer what text
  if n < least then
    Task.fail ("invalid " ++ what ++ ": " ++ quoted text ++ ": Numerical result out of range") 1
  else pure n.toNat

-- A plan changed by one option.
def withOption (p : Plan) (letter : Char) (text : String) : Task Plan := do
  match letter with
  | 'h' => pure { p with header := ← style "header" text }
  | 'b' => pure { p with body := ← style "body" text }
  | 'f' => pure { p with footer := ← style "footer" text }
  | 'v' => pure { p with start := ← integer "starting line number" text }
  | 'i' => pure { p with step := ← integer "line number increment" text }
  | 'p' => pure { p with keepsOn := true }
  | 'l' => pure { p with joined := ← natural "line number of blank lines" text 0 }
  | 's' => pure { p with separator := Text.bytesOf text }
  | 'w' => pure { p with width := ← natural "line number field width" text 1 }
  | 'd' =>
      let mark := Text.bytesOf text
      pure { p with sectionMark := if mark.length = 1 then mark ++ [58] else mark }
  | _ =>
      match text with
      | "ln" => pure { p with placing := .left }
      | "rn" => pure { p with placing := .right }
      | "rz" => pure { p with placing := .zeros }
      | _ => Task.misuse ("invalid line numbering format: " ++ quoted text) 1

end Numbering

def nl : Task Nat := do
  let given ← Task.arguments {
    flags := ['p'], valued := ['b', 's', 'w', 'v', 'i', 'n', 'h', 'f', 'd', 'l']
    long := [("header-numbering", 'h'), ("body-numbering", 'b'), ("footer-numbering", 'f'),
      ("starting-line-number", 'v'), ("line-increment", 'i'), ("no-renumber", 'p'),
      ("join-blank-lines", 'l'), ("number-separator", 's'), ("number-width", 'w'),
      ("number-format", 'n'), ("section-delimiter", 'd')] }
  let plan ← given.options.foldlM (fun p o => Numbering.withOption p o.1 o.2)
    ({} : Numbering.Plan)
  let start : Numbering.State := { style := plan.body, next := plan.start }
  Prod.snd <$> linesOf 10 given.operands (fun (s : Numbering.State) texts => do
    let (s, out) := Numbering.lines plan s texts
    Task.put out
    pure s) start

end Conformance.Tool
