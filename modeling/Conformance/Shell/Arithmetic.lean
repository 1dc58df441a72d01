namespace Conformance.Shell.Arithmetic

inductive Lexeme where
  | number (n : Int)
  | name (s : String)
  | sign (s : String)
deriving DecidableEq, Repr

-- Numbers have sixty-four bits and wrap.
def wrapped (n : Int) : Int :=
  Int.bmod n 18446744073709551616

def largest : Int := 9223372036854775807

def digitValue (c : Char) : Nat :=
  if c.isDigit then c.toNat - 48
  else if c.isLower then c.toNat - 87
  else if c.isUpper then c.toNat - 55
  else 99

-- The digits of a base at the front of a text as a number, and what follows.
def digits (base : Nat) (cs : List Char) : Nat × List Char :=
  let taken := cs.takeWhile fun c => digitValue c < base
  (taken.foldl (fun n c => n * base + digitValue c) 0, cs.drop taken.length)

-- A number without a sign. The base shows in how it begins.
def unsigned (cs : List Char) : Nat × List Char :=
  match cs with
  | '0' :: x :: c :: rest =>
      if (x = 'x' ∨ x = 'X') ∧ digitValue c < 16 then digits 16 (c :: rest) else digits 8 cs
  | '0' :: rest => digits 8 ('0' :: rest)
  | cs => digits 10 cs

-- A whole number that a text is, blanks in front aside.
def integer? (s : String) : Option Int :=
  let cs := s.toList.dropWhile Char.isWhitespace
  let (negative, body) := match cs with
    | '-' :: rest => (true, rest)
    | '+' :: rest => (false, rest)
    | cs => (false, cs)
  match body with
  | [] => none
  | c :: _ =>
      let (n, rest) := unsigned body
      if c.isDigit ∧ (rest.dropWhile Char.isWhitespace).isEmpty then
        let n : Int := if negative then -n else n
        some (max (-largest - 1) (min largest n))
      else none

def signs : List String := [
  "<<=", ">>=", "<<", ">>", "<=", ">=", "==", "!=", "&&", "||", "+=", "-=", "*=", "/=", "%=", "&=",
  "^=", "|=", "<", ">", "=", "!", "&", "|", "^", "~", "+", "-", "*", "/", "%", "(", ")", "?", ":"]

def lexemes : Nat → List Char → Option (List Lexeme)
  | 0, _ => none
  | _, [] => some []
  | fuel + 1, c :: rest =>
      if c = ' ' ∨ c = '\t' ∨ c = '\n' then lexemes fuel rest
      else if c.isDigit then
        let (n, more) := unsigned (c :: rest)
        (lexemes fuel more).map (.number (min largest n) :: ·)
      else if c.isAlpha ∨ c = '_' then
        let name := c :: rest.takeWhile fun c => c.isAlphanum || c = '_'
        (lexemes fuel ((c :: rest).drop name.length)).map (.name (String.ofList name) :: ·)
      else match signs.find? fun s => s.toList.isPrefixOf (c :: rest) with
        | some s => (lexemes fuel ((c :: rest).drop s.length)).map (.sign s :: ·)
        | none => (lexemes fuel rest).map (.sign (String.ofList [c]) :: ·)

-- What is left of an expression, and what its names were set to, latest
-- first.
structure State where
  left : List Lexeme
  assigned : List (String × Int) := []

inductive Fault where
  | expecting (what : String)
  | zeroDivision
  | illegalNumber (text : String)
deriving DecidableEq, Repr

abbrev Eval := StateT State (Except Fault)

def peek : Eval (Option Lexeme) := do
  pure (← get).left.head?

def skip : Eval Unit :=
  modify fun s => { s with left := s.left.drop 1 }

def isTrue (n : Int) : Bool := n ≠ 0

def ofBool (b : Bool) : Int := if b then 1 else 0

-- Two numbers as words of bits.
def bitwise (f : UInt64 → UInt64 → UInt64) (a b : Int) : Int :=
  wrapped (f (UInt64.ofInt a) (UInt64.ofInt b)).toNat

def shift (left : Bool) (a b : Int) : Int :=
  let count := (b % 64).toNat
  if left then wrapped (a * (Nat.pow 2 count : Nat)) else a / (Nat.pow 2 count : Nat)

def apply (sign : String) (a b : Int) : Except Fault Int :=
  match sign with
  | "|" => .ok (bitwise UInt64.lor a b)
  | "^" => .ok (bitwise UInt64.xor a b)
  | "&" => .ok (bitwise UInt64.land a b)
  | "==" => .ok (ofBool (a = b))
  | "!=" => .ok (ofBool (a ≠ b))
  | "<" => .ok (ofBool (a < b))
  | ">" => .ok (ofBool (a > b))
  | "<=" => .ok (ofBool (a ≤ b))
  | ">=" => .ok (ofBool (a ≥ b))
  | "<<" => .ok (shift true a b)
  | ">>" => .ok (shift false a b)
  | "+" => .ok (wrapped (a + b))
  | "-" => .ok (wrapped (a - b))
  | "*" => .ok (wrapped (a * b))
  | "/" => if b = 0 then .error .zeroDivision else .ok (wrapped (a.tdiv b))
  | "%" => if b = 0 then .error .zeroDivision else .ok (a.tmod b)
  | _ => .error (.expecting "EOF")

-- The signs between two operands, those that bind least first.
def levels : List (List String) := [
  ["|"], ["^"], ["&"], ["==", "!="], ["<", ">", "<=", ">="], ["<<", ">>"], ["+", "-"],
  ["*", "/", "%"]]

-- The sign that an assignment works with, when it has one.
def assigning? (sign : String) : Option (Option String) :=
  if sign = "=" then some none
  else if ["+=", "-=", "*=", "/=", "%=", "&=", "^=", "|=", "<<=", ">>="].contains sign then
    some (some (String.ofList sign.toList.dropLast))
  else none

variable (lookup : String → Option String)

-- The value of a name; one that is not set counts as zero.
def valueOf (name : String) : Eval Int := do
  match (← get).assigned.find? fun entry => entry.1 = name with
  | some entry => pure entry.2
  | none =>
      let text := (lookup name).getD ""
      if text.isEmpty then pure 0
      else match integer? text with
        | some n => pure n
        | none => throw (.illegalNumber text)

mutual

-- The value of an expression. What is not needed for it is read and not
-- carried out.
def assignment : Nat → Bool → Eval Int
  | 0, _ => throw (.expecting "primary")
  | fuel + 1, live => do
      match (← get).left with
      | .name name :: .sign sign :: _ =>
          match assigning? sign with
          | none => conditional fuel live
          | some operator => do
              skip
              skip
              let value ← assignment fuel live
              if !live then pure value
              else
                let value ← match operator with
                  | none => pure value
                  | some operator => do
                      let old ← valueOf lookup name
                      StateT.lift (apply operator old value)
                modify fun s => { s with assigned := (name, value) :: s.assigned }
                pure value
      | _ => conditional fuel live

def conditional : Nat → Bool → Eval Int
  | 0, _ => throw (.expecting "primary")
  | fuel + 1, live => do
      let condition ← disjunction fuel live
      match ← peek with
      | some (.sign "?") => do
          skip
          let yes ← assignment fuel (live && isTrue condition)
          match ← peek with
          | some (.sign ":") => do
              skip
              let no ← conditional fuel (live && !isTrue condition)
              pure (if isTrue condition then yes else no)
          | _ => throw (.expecting "':'")
      | _ => pure condition

def disjunction : Nat → Bool → Eval Int
  | 0, _ => throw (.expecting "primary")
  | fuel + 1, live => do
      let first ← conjunction fuel live
      match ← peek with
      | some (.sign "||") => do
          skip
          let second ← disjunction fuel (live && !isTrue first)
          pure (ofBool (isTrue first || isTrue second))
      | _ => pure first

def conjunction : Nat → Bool → Eval Int
  | 0, _ => throw (.expecting "primary")
  | fuel + 1, live => do
      let first ← operation fuel live levels
      match ← peek with
      | some (.sign "&&") => do
          skip
          let second ← conjunction fuel (live && isTrue first)
          pure (ofBool (isTrue first && isTrue second))
      | _ => pure first

def operation : Nat → Bool → List (List String) → Eval Int
  | 0, _, _ => throw (.expecting "primary")
  | fuel + 1, live, [] => operand fuel live
  | fuel + 1, live, signs :: tighter => do
      let first ← operation fuel live tighter
      operationRest fuel live signs tighter first

def operationRest : Nat → Bool → List String → List (List String) → Int → Eval Int
  | 0, _, _, _, _ => throw (.expecting "primary")
  | fuel + 1, live, signs, tighter, first => do
      match ← peek with
      | some (.sign sign) =>
          if signs.contains sign then do
            skip
            let second ← operation fuel live tighter
            let value ← if live then StateT.lift (apply sign first second) else pure second
            operationRest fuel live signs tighter value
          else pure first
      | _ => pure first

def operand : Nat → Bool → Eval Int
  | 0, _ => throw (.expecting "primary")
  | fuel + 1, live => do
      match ← peek with
      | some (.number n) => do
          skip
          pure n
      | some (.name name) => do
          skip
          if live then valueOf lookup name else pure 0
      | some (.sign "(") => do
          skip
          let value ← assignment fuel live
          match ← peek with
          | some (.sign ")") => do
              skip
              pure value
          | _ => throw (.expecting "')'")
      | some (.sign "+") => do
          skip
          operand fuel live
      | some (.sign "-") => do
          skip
          pure (wrapped (-(← operand fuel live)))
      | some (.sign "!") => do
          skip
          pure (ofBool !(isTrue (← operand fuel live)))
      | some (.sign "~") => do
          skip
          pure (-(← operand fuel live) - 1)
      | _ => throw (.expecting "primary")

end

def Fault.message (expression : String) : Fault → String
  | .expecting what =>
      "arithmetic expression: expecting " ++ what ++ ": \"" ++ expression ++ "\""
  | .zeroDivision => "arithmetic expression: division by zero: \"" ++ expression ++ "\""
  | .illegalNumber text => "Illegal number: " ++ text

-- The value of an expression and what its names are set to, latest first.
def evaluate (expression : String) : Except Fault (Int × List (String × Int)) := do
  match lexemes (expression.length + 1) expression.toList with
  | none => .error (.expecting "primary")
  | some [] => .ok (0, [])
  | some left =>
      let (value, s) ← (assignment lookup (32 * left.length + 64) true).run { left := left }
      if s.left.isEmpty then .ok (value, s.assigned) else .error (.expecting "EOF")

end Conformance.Shell.Arithmetic
