namespace Conformance.Shell

-- A part of a pattern for names.
inductive Glob where
  | literal (c : Char)
  | any
  | many
  | oneOf (negated : Bool) (ranges : List (Char × Char))
deriving DecidableEq, Repr

-- A character of an expanded word, and whether it is protected from meaning
-- more than itself.
abbrev Mark := Char × Bool

namespace Glob

-- The ranges of a named class of characters.
def classRanges (name : String) : List (Char × Char) :=
  match name with
  | "alpha" => [('a', 'z'), ('A', 'Z')]
  | "digit" => [('0', '9')]
  | "alnum" => [('a', 'z'), ('A', 'Z'), ('0', '9')]
  | "upper" => [('A', 'Z')]
  | "lower" => [('a', 'z')]
  | "space" => [('\t', '\r'), (' ', ' ')]
  | "blank" => [('\t', '\t'), (' ', ' ')]
  | "punct" => [('!', '/'), (':', '@'), ('[', '\x60'), ('\x7b', '~')]
  | "print" => [(' ', '~')]
  | "graph" => [('!', '~')]
  | "cntrl" => [('\x00', '\x1f'), ('\x7f', '\x7f')]
  | "xdigit" => [('0', '9'), ('a', 'f'), ('A', 'F')]
  | _ => []

-- The ranges inside brackets and what follows them, unless they are not
-- closed. A closing bracket that comes first stands for itself.
def brackets : Nat → Bool → List Mark → Option (List (Char × Char) × List Mark)
  | 0, _, _ => none
  | _, _, [] => none
  | fuel + 1, first, (c, quoted) :: rest =>
      if c = ']' ∧ !quoted ∧ !first then some ([], rest)
      else
        match c, quoted, rest with
        | '[', false, (':', false) :: more =>
            let name := (more.takeWhile fun m => m.1 ≠ ':').map Prod.fst
            match more.drop name.length with
            | (':', _) :: (']', _) :: behind =>
                (brackets fuel false behind).map fun r =>
                  (classRanges (String.ofList name) ++ r.1, r.2)
            | _ => (brackets fuel false rest).map fun r => ((c, c) :: r.1, r.2)
        | _, _, ('-', false) :: (d, dQuoted) :: behind =>
            if d = ']' ∧ !dQuoted then
              (brackets fuel false rest).map fun r => ((c, c) :: r.1, r.2)
            else (brackets fuel false behind).map fun r => ((c, d) :: r.1, r.2)
        | _, _, _ => (brackets fuel false rest).map fun r => ((c, c) :: r.1, r.2)

-- The pattern that an expanded word is.
def ofMarks : Nat → List Mark → List Glob
  | 0, _ => []
  | _, [] => []
  | fuel + 1, (c, quoted) :: rest =>
      if quoted then .literal c :: ofMarks fuel rest
      else if c = '*' then .many :: ofMarks fuel rest
      else if c = '?' then .any :: ofMarks fuel rest
      else if c = '\\' then
        match rest with
        | (d, _) :: more => .literal d :: ofMarks fuel more
        | [] => [.literal c]
      else if c = '[' then
        let (negated, inner) := match rest with
          | ('!', false) :: more => (true, more)
          | ('^', false) :: more => (true, more)
          | _ => (false, rest)
        match brackets (inner.length + 1) true inner with
        | some (ranges, behind) => .oneOf negated ranges :: ofMarks fuel behind
        | none => .literal c :: ofMarks fuel rest
      else .literal c :: ofMarks fuel rest

def parse (marks : List Mark) : List Glob :=
  ofMarks (marks.length + 1) marks

def holds (ranges : List (Char × Char)) (c : Char) : Bool :=
  ranges.any fun range => range.1 ≤ c && c ≤ range.2

def suffixes : List Char → List (List Char)
  | [] => [[]]
  | c :: rest => (c :: rest) :: suffixes rest

-- Whether a text is of the form of a pattern.
def fits : List Glob → List Char → Bool
  | [], cs => cs.isEmpty
  | .many :: ps, cs => (suffixes cs).any (fits ps)
  | _ :: _, [] => false
  | .any :: ps, _ :: rest => fits ps rest
  | .literal p :: ps, c :: rest => p = c && fits ps rest
  | .oneOf negated ranges :: ps, c :: rest => holds ranges c != negated && fits ps rest

-- How many characters of the front, or of the end, of a text fit a pattern:
-- as many or as few as can be.
def cut (atFront longest : Bool) (ps : List Glob) (cs : List Char) : Option Nat :=
  let counts := List.range (cs.length + 1)
  let counts := if longest then counts.reverse else counts
  counts.find? fun n => fits ps (if atFront then cs.take n else cs.drop (cs.length - n))

-- A text without the part at its front or end that fits a pattern.
def trimmed (atFront longest : Bool) (ps : List Glob) (s : String) : String :=
  let cs := s.toList
  match cut atFront longest ps cs with
  | none => s
  | some n => String.ofList (if atFront then cs.drop n else cs.take (cs.length - n))

-- Whether a word can stand for names other than itself.
def isWild (marks : List Mark) : Bool :=
  (parse marks).any fun (g : Glob) => match g with
    | .literal _ => false
    | _ => true

end Glob

end Conformance.Shell
