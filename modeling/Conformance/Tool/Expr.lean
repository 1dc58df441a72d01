import Conformance.Regex.Parser
import Conformance.Tool.Order

-- Sums, comparisons and matches of words.
namespace Conformance.Tool

open Text (Bytes)

namespace Expr

inductive Fault where
  | badArgument (word : String)
  | missingAfter (word : String)
  | missingClose (word : String)
  | notNumber
  | zeroDivision
  | badPattern (text : String)

def Fault.message : Fault → String
  | badArgument word => "syntax error: unexpected argument " ++ quoted word
  | missingAfter word => "syntax error: missing argument after " ++ quoted word
  | missingClose word => "syntax error: expecting ')' after " ++ quoted word
  | notNumber => "non-integer argument"
  | zeroDivision => "division by zero"
  | badPattern text => text

-- The words that are left, and the last one that was taken.
structure State where
  left : List String
  last : String := ""

abbrev Eval := StateT State (Except Fault)

def peek : Eval (Option String) := do
  pure (← get).left.head?

def take : Eval (Option String) := do
  let s ← get
  match s.left with
  | [] => pure none
  | word :: rest => do
      set (⟨rest, word⟩ : State)
      pure (some word)

def needed : Eval String := do
  match ← take with
  | some word => pure word
  | none => throw (.missingAfter (← get).last)

def number? (word : String) : Option Int :=
  match word.toList with
  | '-' :: digits =>
      if digits.isEmpty ∨ !digits.all Char.isDigit then none
      else (String.ofList digits).toNat?.map fun n => -(n : Int)
  | digits => if digits.all Char.isDigit then word.toNat?.map Int.ofNat else none

def number (word : String) : Eval Int :=
  match number? word with
  | some n => pure n
  | none => throw .notNumber

-- Whether a word counts as nothing.
def isNull (word : String) : Bool :=
  word = "" || (let digits := if word.startsWith "-" then word.toList.drop 1 else word.toList
    !digits.isEmpty && digits.all (· = '0'))

-- What a pattern at the front of a word matches: its group, or how much.
def matched (word pattern : String) : Eval String := do
  let line := Text.bytesOf word
  match Regex.parse { extended := false, strict := true } (Text.bytesOf pattern) with
  | .error f => throw (.badPattern f.message)
  | .ok ⟨r, groups, _⟩ =>
      let found := r.matchAt {} line none line 0
      pure (match found with
        | some m => if groups > 0 then Text.lossy (m.text line 1) else toString m.stop
        | none => if groups > 0 then "" else "0")

def levels : List (List String) := [
  ["|"], ["&"], ["<", "<=", "=", "==", "!=", ">=", ">"], ["+", "-"], ["*", "/", "%"], [":"]]

def truth (b : Bool) : String := if b then "1" else "0"

def apply (sign left right : String) : Eval String := do
  let sum (f : Int → Int → Int) : Eval String := do
    pure (toString (f (← number left) (← number right)))
  let quotient (f : Int → Int → Int) : Eval String := do
    let a ← number left
    let b ← number right
    if b = 0 then throw .zeroDivision else pure (toString (f a b))
  let order : Ordering := match number? left, number? right with
    | some a, some b => compare a b
    | _, _ => compareBytes (Text.bytesOf left) (Text.bytesOf right)
  match sign with
  | "|" => pure (if !isNull left then left else if isNull right then "0" else right)
  | "&" => pure (if isNull left || isNull right then "0" else left)
  | "<" => pure (truth (order = .lt))
  | "<=" => pure (truth (order ≠ .gt))
  | "!=" => pure (truth (order ≠ .eq))
  | ">=" => pure (truth (order ≠ .lt))
  | ">" => pure (truth (order = .gt))
  | "+" => sum (· + ·)
  | "-" => sum (· - ·)
  | "*" => sum (· * ·)
  | "/" => quotient Int.tdiv
  | "%" => quotient Int.tmod
  | ":" => matched left right
  | _ => pure (truth (order = .eq))

mutual

def level : Nat → List (List String) → Eval String
  | 0, _ => throw .notNumber
  | fuel + 1, [] => primary fuel
  | fuel + 1, signs :: rest => do
      let left ← level fuel rest
      levelRest fuel signs rest left

def levelRest : Nat → List String → List (List String) → String → Eval String
  | 0, _, _, left => pure left
  | fuel + 1, signs, rest, left => do
      match ← peek with
      | some sign =>
          if signs.contains sign then do
            discard take
            let right ← level fuel rest
            levelRest fuel signs rest (← apply sign left right)
          else pure left
      | none => pure left

def primary : Nat → Eval String
  | 0 => throw .notNumber
  | fuel + 1 => do
      let word ← needed
      if word = "(" then do
        let inner ← level fuel levels
        match ← take with
        | some ")" => pure inner
        | some other => throw (.missingClose other)
        | none => throw (.missingClose (← get).last)
      else if word = ")" then throw (.badArgument word)
      else if word = "+" then needed
      else if (← peek).isNone then pure word
      else if word = "length" then do
        pure (toString (Text.bytesOf (← primary fuel)).length)
      else if word = "match" then do
        let text ← primary fuel
        matched text (← primary fuel)
      else if word = "index" then do
        let text := Text.bytesOf (← primary fuel)
        let wanted := Text.bytesOf (← primary fuel)
        pure (toString ((text.findIdx? wanted.contains).elim 0 (· + 1)))
      else if word = "substr" then do
        let text := Text.bytesOf (← primary fuel)
        let start := number? (← primary fuel)
        let length := number? (← primary fuel)
        match start, length with
        | some start, some length =>
            if start < 1 ∨ length < 1 then pure ""
            else pure (Text.lossy ((text.drop (start.toNat - 1)).take length.toNat))
        | _, _ => pure ""
      else pure word

end

def evaluate (words : List String) : Except Fault String := do
  let (value, s) ← (level (12 * words.length + 24) levels).run { left := words }
  match s.left with
  | [] => .ok value
  | word :: _ => .error (.badArgument word)

end Expr

def expr : Task Nat := do
  let args := (← read).args
  let args := if args.head? = some "--" then args.drop 1 else args
  if args.isEmpty then Task.misuse "missing operand" 2
  else match Expr.evaluate args with
    | .error f => Task.fail f.message 2
    | .ok value => do
        Task.say (value ++ "\n")
        pure (Task.statusOf (!Expr.isNull value))

end Conformance.Tool
