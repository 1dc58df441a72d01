import Conformance.Text.Utf8

namespace Conformance

open Text (Bytes)

-- A pattern for byte strings.
inductive Regex where
  | empty
  | oneOf (negated : Bool) (ranges : List (UInt8 × UInt8))
  | lineStart
  | lineEnd
  | wordStart
  | wordEnd
  -- an edge of a word, or no edge of one
  | wordEdge (isEdge : Bool)
  -- no byte of a word right before this place, or right behind it
  | clear (before : Bool)
  | both (first second : Regex)
  | either (first second : Regex)
  -- so many times at least and at most, rather more or rather fewer
  | times (greedy : Bool) (inner : Regex) (least : Nat) (most : Option Nat)
  | group (number : Nat) (inner : Regex)
  -- what a group has matched
  | same (number : Nat)
deriving Repr

namespace Regex

def byte (b : UInt8) : Regex :=
  oneOf false [(b, b)]

def any : Regex :=
  oneOf true []

def letterRanges : List (UInt8 × UInt8) :=
  [(97, 122), (65, 90)]

def digitRanges : List (UInt8 × UInt8) :=
  [(48, 57)]

def wordRanges : List (UInt8 × UInt8) :=
  letterRanges ++ digitRanges ++ [(95, 95)]

def blankRanges : List (UInt8 × UInt8) :=
  [(9, 13), (32, 32)]

def inRanges (ranges : List (UInt8 × UInt8)) (b : UInt8) : Bool :=
  ranges.any fun r => r.1 ≤ b && b ≤ r.2

def isWordByte (b : UInt8) : Bool :=
  inRanges wordRanges b

-- The other case of a letter.
def otherCase (b : UInt8) : UInt8 :=
  if 97 ≤ b && b ≤ 122 then b - 32 else if 65 ≤ b && b ≤ 90 then b + 32 else b

-- Where a match begins and ends, and where its groups do.
structure Match where
  start : Nat
  stop : Nat
  groups : List (Nat × Nat × Nat)
deriving Repr

namespace Match

-- The part of a text that a group has matched; group zero is all of it.
def text (m : Match) (line : Bytes) (number : Nat) : Bytes :=
  if number = 0 then (line.take m.stop).drop m.start
  else match m.groups.find? fun g => g.1 = number with
    | some (_, start, stop) => (line.take stop).drop start
    | none => []

end Match

-- What is still to be matched.
inductive Goal where
  | pattern (r : Regex)
  | closing (number start : Nat)
  -- a round of a repetition must not be empty
  | beyond (start : Nat)

-- A match under way: what is to come, the byte before this place, the bytes
-- behind it, and the number of bytes in front of it.
structure Attempt where
  goals : List Goal
  before : Option UInt8
  rest : Bytes
  place : Nat
  groups : List (Nat × Nat × Nat) := []

def edgeAt (a : Attempt) : Bool :=
  a.before.any isWordByte != a.rest.head?.any isWordByte

-- How texts are looked at: whether case counts, whether lines inside a text have
-- ends of their own, and whether the first match counts or the longest one.
structure Manner where
  folded : Bool := false
  manyLines : Bool := false
  first : Bool := false
deriving DecidableEq, Repr

variable (m : Manner) (line : Bytes)

def admits (negated : Bool) (ranges : List (UInt8 × UInt8)) (b : UInt8) : Bool :=
  (inRanges ranges b || m.folded && inRanges ranges (otherCase b)) != negated

-- The attempts that one becomes by its first goal, the best one first.
def advance (a : Attempt) (goal : Goal) (goals : List Goal) : List Attempt :=
  let here : Attempt := { a with goals := goals }
  let after (first : List Goal) : Attempt := { a with goals := first ++ goals }
  let when (holds : Bool) : List Attempt := if holds then [here] else []
  match goal with
  | .closing number start =>
      [{ here with groups := (number, start, a.place) :: a.groups.filter fun g => g.1 ≠ number }]
  | .beyond start => when (start < a.place)
  | .pattern r =>
      match r with
      | .empty => [here]
      | .oneOf negated ranges =>
          match a.rest with
          | b :: rest =>
              if admits m negated ranges b then
                [{ here with before := some b, rest := rest, place := a.place + 1 }]
              else []
          | [] => []
      | .lineStart => when (a.before.isNone || m.manyLines && a.before = some 10)
      | .lineEnd => when (a.rest.isEmpty || m.manyLines && a.rest.head? = some 10)
      | .wordStart => when (edgeAt a && a.rest.head?.any isWordByte)
      | .wordEnd => when (edgeAt a && a.before.any isWordByte)
      | .wordEdge isEdge => when (edgeAt a = isEdge)
      | .clear true => when (!a.before.any isWordByte)
      | .clear false => when (!a.rest.head?.any isWordByte)
      | .both first second => [after [.pattern first, .pattern second]]
      | .either first second => [after [.pattern first], after [.pattern second]]
      | .times greedy inner (least + 1) most =>
          [after [.pattern inner, .pattern (.times greedy inner least (most.map (· - 1)))]]
      | .times greedy inner 0 most =>
          if most = some 0 then [here]
          else
            let again : Regex := .times greedy inner 0 (most.map (· - 1))
            let more := after [.pattern inner, .beyond a.place, .pattern again]
            if greedy then [more, here] else [here, more]
      | .group number inner => [after [.pattern inner, .closing number a.place]]
      | .same number =>
          match a.groups.find? fun g => g.1 = number with
          | none => []
          | some (_, start, stop) =>
              let text := (line.take stop).drop start
              let next := a.rest.take text.length
              let alike := next = text || m.folded && next.length = text.length &&
                (next.zip text).all fun p => p.1 = p.2 || otherCase p.1 = p.2
              if alike then
                [{ here with
                  before := if text.isEmpty then a.before else next.getLast?
                  rest := a.rest.drop text.length, place := a.place + text.length }]
              else []

-- The longest match of those that some attempts lead to, or the first one. Of
-- equal ones the first counts.
def longest (start : Nat) : Nat → List Attempt → Option Match → Option Match
  | 0, _, best => best
  | _, [], best => best
  | fuel + 1, a :: others, best =>
      match a.goals with
      | goal :: goals => longest start fuel (advance m line a goal goals ++ others) best
      | [] =>
          let found : Match := ⟨start, a.place, a.groups⟩
          if m.first then some found
          else if a.rest.isEmpty then
            some (match best with
              | some old => if old.stop < a.place then found else old
              | none => found)
          else if best.all fun old => old.stop < a.place then longest start fuel others (some found)
          else longest start fuel others best

-- Far more steps than any match takes.
def patience : Nat := 1000000000000

-- The match that begins at a place.
def matchAt (r : Regex) (before : Option UInt8) (rest : Bytes) (place : Nat) : Option Match :=
  longest m line place patience [⟨[.pattern r], before, rest, place, []⟩] none

def findFrom (r : Regex) : Option UInt8 → Bytes → Nat → Option Match
  | before, [], place => matchAt m line r before [] place
  | before, b :: rest, place =>
      match matchAt m line r before (b :: rest) place with
      | some found => some found
      | none => findFrom r (some b) rest (place + 1)

-- The first match in a line from some place on, and the longest there.
def find? (r : Regex) (place : Nat) : Option Match :=
  let before := if place = 0 then none else (line.drop (place - 1)).head?
  findFrom m line r before (line.drop place) place

end Regex

end Conformance
