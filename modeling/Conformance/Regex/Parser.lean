import Conformance.Regex.Basic
import Conformance.Shell.Pattern

-- Patterns as they are written, in the basic and in the extended form.
namespace Conformance.Regex

open Text (Bytes)

inductive Fault where
  | unmatchedBracket
  | unmatchedParen
  | unmatchedClose
  | unmatchedBrace
  | badBraces
  | trailingBackslash
  | badReference
  | badRange
  | badClass
  | nothingToRepeat
  | unfinished
  | tooBig
  | strayClass
deriving DecidableEq, Repr

def Fault.message : Fault → String
  | unmatchedBracket => "Unmatched [, [^, [:, [., or [="
  | unmatchedParen => "Unmatched ( or \\("
  | unmatchedClose => "Unmatched ) or \\)"
  | unmatchedBrace => "Unmatched \\\x7b"
  | badBraces => "Invalid content of \\\x7b\\\x7d"
  | trailingBackslash => "Trailing backslash"
  | badReference => "Invalid back reference"
  | badRange => "Invalid range end"
  | badClass => "Invalid character class name"
  | nothingToRepeat => "Invalid preceding regular expression"
  | unfinished => "Invalid regular expression"
  | tooBig => "Regular expression too big"
  | strayClass => "character class syntax is [[:space:]], not [:space:]"

namespace Bracket

-- The text up to a mark and a closing bracket, and what follows.
def upTo (mark : UInt8) : Bytes → Option (Bytes × Bytes)
  | [] => none
  | b :: rest =>
      if b = mark ∧ rest.head? = some 93 then some ([], rest.drop 1)
      else (upTo mark rest).map fun r => (b :: r.1, r.2)

def classRanges? (name : Bytes) : Option (List (UInt8 × UInt8)) :=
  match Shell.Glob.classRanges (Text.lossy name) with
  | [] => none
  | ranges => some (ranges.map fun r => (r.1.toNat.toUInt8, r.2.toNat.toUInt8))

-- The ranges inside brackets, behind the opening one.
def ranges : Nat → Bool → Bytes → Except Fault (List (UInt8 × UInt8) × Bytes)
  | 0, _, _ => .error .unmatchedBracket
  | _, _, [] => .error .unmatchedBracket
  | fuel + 1, first, b :: rest => do
      let withMore (found : List (UInt8 × UInt8)) (rest : Bytes) :
          Except Fault (List (UInt8 × UInt8) × Bytes) := do
        let (more, rest) ← ranges fuel false rest
        .ok (found ++ more, rest)
      if b = 93 ∧ !first then .ok ([], rest)
      else match b, rest with
        | 91, 58 :: more =>
            match upTo 58 more with
            | none => .error .unmatchedBracket
            | some (name, behind) =>
                match classRanges? name with
                | some found => withMore found behind
                | none => .error .badClass
        | 91, 61 :: c :: 61 :: 93 :: behind => withMore [(c, c)] behind
        | 91, 46 :: c :: 46 :: 93 :: behind => withMore [(c, c)] behind
        | b, 45 :: c :: behind =>
            if c = 93 then withMore [(b, b)] rest
            else if c < b then .error .badRange
            else withMore [(b, c)] behind
        | b, rest => withMore [(b, b)] rest

end Bracket

-- The ranges behind an opening bracket, which may be taken to mean all others.
def Bracket.parse (strict : Bool) (rest : Bytes) :
    Except Fault (Bool × List (UInt8 × UInt8) × Bytes) := do
  let (negated, rest) := match rest with
    | 94 :: rest => (true, rest)
    | rest => (false, rest)
  if rest.isEmpty then .error .unfinished
  else
    let (found, behind) ← Bracket.ranges (rest.length + 1) true rest
    let inside := rest.take (rest.length - behind.length - 1)
    let isStray := !negated && inside.length > 2 && inside.head? = some 58 &&
      inside.getLast? = some 58
    if isStray && !strict then .error .strayClass else .ok (negated, found, behind)

-- The bounds of a repetition inside braces.
def bounds? (text : Bytes) : Option (Nat × Option Nat) :=
  let number (bs : Bytes) : Option Nat := (Text.lossy bs).toNat?
  let first := text.takeWhile (· ≠ 44)
  match text.drop first.length with
  | [] => (number first).map fun n => (n, some n)
  | _ :: [] => if first.isEmpty then some (0, none) else (number first).map fun n => (n, none)
  | _ :: last => do
      let least ← if first.isEmpty then some 0 else number first
      let most ← number last
      if most < least then none else some (least, some most)

-- The form of a pattern, whether a repetition of nothing is a fault, and whether
-- there are signs for repetitions that rather end soon.
structure Form where
  extended : Bool
  strict : Bool
  lazyToo : Bool := false
deriving DecidableEq, Repr

-- How often a part may be repeated.
def maxTimes : Nat := 32767

-- What is read of a pattern: how many groups were opened, how many are open,
-- and the text that is left.
structure Reading where
  form : Form
  groups : Nat := 0
  depth : Nat := 0
  rest : Bytes
  -- signs that repeat nothing
  warnings : List String := []

-- How often the part before a sign is taken.
structure Suffix where
  least : Nat
  most : Option Nat

-- The repetition at the front, if there is one.
def suffix? (form : Form) (rest : Bytes) : Except Fault (Option (Suffix × Bytes)) :=
  let braces (closing inside : Bytes) : Except Fault (Option (Suffix × Bytes)) :=
    let rec go : Bytes → Bytes → Option (Bytes × Bytes)
      | taken, more =>
          if closing.isPrefixOf more then some (taken.reverse, more.drop closing.length)
          else match more with
            | [] => none
            | b :: more => go (b :: taken) more
    let isPlain := form.extended && !form.strict
    match go [] inside with
    | none => if isPlain then .ok none else .error .unmatchedBrace
    | some (text, behind) =>
        match bounds? text with
        | some (least, most) =>
            if maxTimes < max least (most.getD 0) then .error .tooBig
            else .ok (some (⟨least, most⟩, behind))
        | none => if isPlain then .ok none else .error .badBraces
  match form.extended, rest with
  | _, 42 :: more => .ok (some (⟨0, none⟩, more))
  | true, 43 :: more => .ok (some (⟨1, none⟩, more))
  | true, 63 :: more => .ok (some (⟨0, some 1⟩, more))
  | true, 123 :: more => braces [125] more
  | false, 92 :: 43 :: more => .ok (some (⟨1, none⟩, more))
  | false, 92 :: 63 :: more => .ok (some (⟨0, some 1⟩, more))
  | false, 92 :: 123 :: more => braces [92, 125] more
  | _, _ => .ok none

-- Whether an alternative, or a group, ends here.
def atBar (extended : Bool) (rest : Bytes) : Bool :=
  if extended then rest.head? = some 124 else rest.take 2 = [92, 124]

def atClose (extended : Bool) (rest : Bytes) : Bool :=
  if extended then rest.head? = some 41 else rest.take 2 = [92, 41]

-- A part with the repetitions behind it. Where that counts, basic ones do not
-- follow one another.
def repeated (form : Form) : Nat → Regex → Bytes → Except Fault (Regex × Bytes)
  | 0, r, rest => .ok (r, rest)
  | fuel + 1, r, rest => do
      match ← suffix? form rest with
      | some (⟨least, most⟩, more) =>
          if form.strict && !form.extended && (more.head? = some 42 || more.take 2 = [92, 123]) then
            .error .nothingToRepeat
          else if form.lazyToo && more.head? = some 63 then
            repeated form fuel (.times false r least most) (more.drop 1)
          else repeated form fuel (.times true r least most) more
      | none => .ok (r, rest)

-- What a letter behind a backslash means.
def escaped (withDigits : Bool) (c : UInt8) : Regex :=
  match Char.ofNat c.toNat with
  | 'w' => .oneOf false wordRanges
  | 'W' => .oneOf true wordRanges
  | 's' => .oneOf false blankRanges
  | 'S' => .oneOf true blankRanges
  | 'd' => if withDigits then .oneOf false digitRanges else .byte c
  | 'D' => if withDigits then .oneOf true digitRanges else .byte c
  | 't' => if withDigits then .byte 9 else .byte c
  | 'n' => if withDigits then .byte 10 else .byte c
  | 'b' => .wordEdge true
  | 'B' => .wordEdge false
  | '<' => .wordStart
  | '>' => .wordEnd
  | '\x60' => .lineStart
  | '\'' => .lineEnd
  | _ => .byte c

-- What one byte means, with those behind it, and whether it is an anchor at the
-- front.
def sign (extended atFront : Bool) (b : UInt8) (rest : Bytes) : Regex × Bool :=
  if b = 94 ∧ (extended || atFront) then (.lineStart, true)
  else if b = 36 ∧ (extended || rest.isEmpty || atBar false rest || atClose false rest) then
    (.lineEnd, false)
  else (.byte b, false)

mutual

-- Alternatives up to the end of a group or of the pattern.
def alternatives : Nat → Reading → Except Fault (Regex × Reading)
  | 0, s => .ok (.empty, s)
  | fuel + 1, s => do
      let (first, s) ← sequence fuel true s
      if atBar s.form.extended s.rest then
        let rest := s.rest.drop (if s.form.extended then 1 else 2)
        let (second, s) ← alternatives fuel { s with rest := rest }
        .ok (.either first second, s)
      else .ok (first, s)

-- Parts behind each other. At the front some signs mean themselves.
def sequence : Nat → Bool → Reading → Except Fault (Regex × Reading)
  | 0, _, s => .ok (.empty, s)
  | fuel + 1, atFront, s => do
      if s.rest.isEmpty || atBar s.form.extended s.rest || atClose s.form.extended s.rest then
        let isStray := s.depth = 0 && atClose s.form.extended s.rest
        if isStray && (s.form.strict || !s.form.extended || s.form.lazyToo) then
          .error .unmatchedClose
        else if isStray then
          let (more, s) ← sequence fuel false { s with rest := s.rest.drop 1 }
          .ok (.both (byte 41) more, s)
        else .ok (.empty, s)
      else
        let (part, isAnchor, s) ← atom fuel atFront s
        let isBare := isAnchor && (!s.form.extended || s.form.strict)
        let (part, rest) ← if isBare then .ok (part, s.rest)
          else repeated s.form (s.rest.length + 1) part s.rest
        let (more, s) ← sequence fuel (isAnchor && atFront) { s with rest := rest }
        .ok (.both part more, s)

-- One part, and whether it is an anchor at the front.
def atom : Nat → Bool → Reading → Except Fault (Regex × Bool × Reading)
  | 0, _, s => .ok (.empty, false, s)
  | fuel + 1, atFront, s => do
      let group (rest : Bytes) : Except Fault (Regex × Bool × Reading) := do
        let number := s.groups + 1
        let (inner, after) ← alternatives fuel
          { s with groups := number, depth := s.depth + 1, rest := rest }
        if atClose s.form.extended after.rest then
          .ok (.group number inner, false, { after with
            depth := s.depth, rest := after.rest.drop (if s.form.extended then 1 else 2) })
        else .error .unmatchedParen
      let plain (r : Regex) (rest : Bytes) : Except Fault (Regex × Bool × Reading) :=
        .ok (r, false, { s with rest := rest })
      match s.rest with
      | [] => .ok (.empty, false, s)
      | 92 :: [] => .error .trailingBackslash
      | 92 :: c :: rest =>
          if !s.form.extended && c = 40 then group rest
          else if 49 ≤ c && c ≤ 57 then
            let number := c.toNat - 48
            if number ≤ s.groups then plain (.same number) rest else .error .badReference
          else if !s.form.extended && c = 123 then
            if atFront then .error .nothingToRepeat else plain (.byte c) rest
          else plain (escaped s.form.lazyToo c) rest
      | 91 :: rest => do
          let (negated, ranges, rest) ← Bracket.parse s.form.strict rest
          plain (.oneOf negated ranges) rest
      | 46 :: rest => plain any rest
      | b :: rest =>
          let isBrace := s.form.extended && atFront && b = 123 &&
            (suffix? s.form (b :: rest)).toOption.any Option.isSome
          let repeats := s.form.extended && atFront && (b ∈ [42, 43, 63] || isBrace)
          if s.form.extended && b = 40 then
            if s.form.lazyToo && rest.take 2 = [63, 58] then do
              let (inner, after) ← alternatives fuel
                { s with depth := s.depth + 1, rest := rest.drop 2 }
              if atClose true after.rest then
                .ok (inner, false, { after with depth := s.depth, rest := after.rest.drop 1 })
              else .error .unmatchedParen
            else group rest
          else if s.form.strict && (repeats || s.form.extended && atFront && b = 123) then
            .error .nothingToRepeat
          else if repeats then
            let shown := if isBrace then "\x7b...\x7d" else Text.lossy [b]
            .ok (.empty, false, { s with
              warnings := s.warnings ++ [shown ++ " at start of expression"] })
          else
            let (r, isAnchor) := sign s.form.extended atFront b rest
            .ok (r, isAnchor, { s with rest := rest })

end

-- A pattern that was read, the number of its groups, and what is odd about it.
structure Parsed where
  regex : Regex
  groups : Nat
  warnings : List String

-- The pattern that a text is.
def parse (form : Form) (text : Bytes) : Except Fault Parsed := do
  let (r, s) ← alternatives (8 * text.length + 8) { form := form, rest := text }
  .ok ⟨r, s.groups, s.warnings⟩

end Conformance.Regex
